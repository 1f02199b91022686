import IssueSearch.Search.Result
/-!
The bodies in which errors are reported to callers: a code, and what belongs to the kind of error.
-/
namespace IssueSearch.ErrorBody

/-- An error that is known by its message alone. -/
def general (code message : String) : Json :=
  .obj [("error", .str code), ("message", .str message)]

/-- The message that any number of arguments make: none is empty, one is shown, several are listed
in parentheses. -/
def messageOf : List Json → String
  | [] => ""
  | [argument] => argument.display
  | arguments => "(" ++ ", ".intercalate (Json.itemLiterals arguments) ++ ")"

/-- A filter that cannot be written as query text. -/
def uncompilable (message field operator value : Json) : Json :=
  .obj [("error", .str "VALIDATION_ERROR"), ("message", message), ("field", field),
    ("operator", operator), ("value", value)]

/-- A request with errors. -/
def rejected (errors : List String) (warnings : List Json) : Json :=
  .obj [("error", .str "QUERY_VALIDATION_ERROR"), ("errors", .arr (errors.map .str)),
    ("warnings", .arr warnings)]

/-- Why values make no rejection. -/
inductive ArgumentError where
  | notWalkable (value : Json)
  | notText (i : Nat) (value : Json)

def ArgumentError.message : ArgumentError → String
  | .notWalkable value => "'" ++ value.kindName ++ "' object is not iterable"
  | .notText i value =>
      "sequence item " ++ toString i ++ ": expected str instance, " ++ value.kindName ++ " found"

/-- The values met when an argument is walked through. -/
def walk (value : Json) : Except ArgumentError (List Json) :=
  match value.elements? with
  | some items => .ok items
  | none => .error (.notWalkable value)

/-- Values at the positions from `i` on, if all of them are texts. -/
def textsFrom : (i : Nat) → List Json → Except ArgumentError (List String)
  | _, [] => .ok []
  | i, .str s :: rest => (textsFrom (i + 1) rest).map (s :: ·)
  | i, value :: _ => .error (.notText i value)

/-- The errors and warnings of a rejection, each given as anything that can be walked through.
Errors are texts; an empty value has no warnings. -/
def rejectionOf (errors warnings : Json) : Except ArgumentError (List String × List Json) := do
  let errors ← walk errors
  let warnings ← if warnings.isFalsy then .ok [] else walk warnings
  return (← textsFrom 0 errors, warnings)

/-- An operator that is not known. -/
def unknownOperator (e : UnknownOperator) : Json :=
  .obj [("error", .str "OPERATOR_NOT_SUPPORTED"), ("operator", .str e.operator),
    ("suggestions", .arr (e.suggestions.map .str)),
    ("valid_operators", .arr (e.sortedValid.map .str))]

def ofClauseError (e : ClauseError) : Json :=
  uncompilable (.str e.message) (.str e.field) (Json.ofOption (fun o => .str o.name) e.operator?) e.value

end IssueSearch.ErrorBody
