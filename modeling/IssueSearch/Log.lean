/-!
Log records: what the library tells about its work beside its answers.
-/
namespace IssueSearch

/-- The part of the library that a record comes from. -/
inductive Channel where
  | query | cache | monitor | metrics | search
deriving DecidableEq, Repr

def Channel.name : Channel → String
  | .query => "compiler"
  | .cache => "cache"
  | .monitor => "performance"
  | .metrics => "metrics"
  | .search => "orchestrator"

inductive Level where
  | debug | info | warning
deriving DecidableEq, Repr

def Level.name : Level → String
  | .debug => "DEBUG"
  | .info => "INFO"
  | .warning => "WARNING"

structure LogRecord where
  channel : Channel
  level : Level
  message : String
deriving DecidableEq, Repr

/-- The records of warnings given while a request is compiled. -/
def LogRecord.ofWarnings (warnings : List String) : List LogRecord :=
  warnings.map fun warning => ⟨.query, .warning, warning⟩

end IssueSearch
