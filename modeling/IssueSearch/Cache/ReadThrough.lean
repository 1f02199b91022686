import IssueSearch.Cache.Basic
import IssueSearch.Cache.Key
import IssueSearch.Failure
/-!
Calls through a cache: a call whose arguments are answered by the cache never reaches the fetcher,
any other fetches and stores what it fetched. A call is two steps with the fetch in between, so
that several may be on their way at once.
-/
namespace IssueSearch.Cache

/-- A fetcher's place in the cache. -/
structure ReadThrough where
  domain : String
  endpoint : String
  ttl : Json := .null

namespace ReadThrough

/-- Arguments by position and by name as parameters of a key; no arguments are no parameters. -/
def params (args : List Json) (named : List (String × Json)) : Json :=
  if args.isEmpty && named.isEmpty then .null
  else .obj [("args", .arr args), ("kwargs", .obj named)]

def key (w : ReadThrough) (args : List Json) (named : List (String × Json)) : String :=
  Cache.key w.domain w.endpoint (params args named)

variable {τ α : Type} [Timeline τ]

/-- The first step: the stored payload, if there is one. -/
def begin? (c : Cache τ α) (now : τ) (key : String) :
    Except Overflow (Option α × Cache τ α) :=
  (c.get? now key).map fun (found, c) => (found.map Entry.payload, c)

/-- The second step, when the fetcher has come back with a payload. -/
def finish (w : ReadThrough) (c : Cache τ α) (now : τ) (key : String) (payload : α) :
    Except Cache.Error Unit × Cache τ α × List LogRecord :=
  let (stored, c, log) := c.insert now key payload w.ttl
  (stored.map fun _ => (), c, log)

/-- Why a call has no answer. -/
inductive Error where
  | fetch (failure : Failure)
  | cache (cause : Cache.Error)

/-- How a call was answered. -/
structure Answer (α : Type) where
  payload : α
  /-- Milliseconds that the fetch took. -/
  duration : Option Float := none

/-- What came of a call. -/
structure Outcome (α : Type) where
  answer : Except Error (Answer α)
  /-- Whether the fetcher was called. -/
  fetched : Bool
  cache : Cache Float α
  log : List LogRecord := []

/-- A call that nothing comes between: the fetch starts at `now` and is back at `later`. -/
def call (w : ReadThrough) (c : Cache Float α) (now later : Float) (args : List Json)
    (named : List (String × Json)) (answer : Except Failure α) : Outcome α :=
  let key := w.key args named
  match begin? c now key with
  | .error cause => { answer := .error (.cache (.overflow cause)), fetched := false, cache := c }
  | .ok (some payload, c) => { answer := .ok { payload }, fetched := false, cache := c }
  | .ok (none, c) =>
      match answer with
      | .error failure => { answer := .error (.fetch failure), fetched := true, cache := c }
      | .ok payload =>
          let (finished, c, log) := w.finish c later key payload
          let duration := Decimal.roundTo 2 ((later - now) * 1000.0)
          { answer := (finished.mapError .cache).map fun _ => { payload, duration := some duration }
            fetched := true
            cache := c
            log }

end ReadThrough
end IssueSearch.Cache
