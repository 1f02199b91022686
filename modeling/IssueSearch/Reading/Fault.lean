import IssueSearch.Operator
/-!
What can be wrong with a value that a filter or request is read from. A fault is a cause and the
place where it was met; readings collect the faults of all parts instead of stopping at the first.
-/
namespace IssueSearch

/-- Why a value was refused. -/
inductive Cause where
  | missing
  | notText
  | notFlag
  | unreadableFlag
  | notInteger
  | notNumber
  | notFinite
  | fractional
  | tooLarge
  | unreadableInteger
  | below (least : Nat)
  | notList
  | tooShort
  | tooLong (count : Nat)
  | notObject (model : String)
  | unknownShape
  | notOperator
  | wrongShape (operator : Operator) (shape : Shape)
  | notDirection
deriving DecidableEq, Repr

namespace Cause

/-- Alternatives in running text: all quoted, the last behind "or". -/
def alternatives (names : List String) : String :=
  let shown := names.map fun name => "'" ++ name ++ "'"
  match shown.getLast? with
  | none => ""
  | some last =>
      if shown.length = 1 then last
      else ", ".intercalate shown.dropLast ++ " or " ++ last

def message : Cause → String
  | missing => "Field required"
  | notText => "Input should be a valid string"
  | notFlag => "Input should be a valid boolean"
  | unreadableFlag => "Input should be a valid boolean, unable to interpret input"
  | notInteger => "Input should be a valid integer"
  | notNumber => "Input should be a valid number"
  | notFinite => "Input should be a finite number"
  | fractional => "Input should be a valid integer, got a number with a fractional part"
  | tooLarge => "Unable to parse input string as an integer, exceeded maximum size"
  | unreadableInteger =>
      "Input should be a valid integer, unable to parse string as an integer"
  | below least => "Input should be greater than or equal to " ++ toString least
  | notList => "Input should be a valid tuple"
  | tooShort => "Tuple should have at least 1 item after validation, not 0"
  | tooLong count => "Tuple should have at most 2 items after validation, not " ++ toString count
  | notObject model => "Input should be a valid dictionary or instance of " ++ model
  | unknownShape => "Unsupported filter operator"
  | notOperator => "Input should be " ++ alternatives Operator.names
  | wrongShape operator shape =>
      "Value error, operator '" ++ operator.name ++ "' is not valid for " ++ shape.filterName
  | notDirection => "Input should be " ++ alternatives ["asc", "desc"]

/-- The short code of a cause. -/
def code : Cause → String
  | missing => "missing"
  | notText => "string_type"
  | notFlag => "bool_type"
  | unreadableFlag => "bool_parsing"
  | notInteger => "int_type"
  | notNumber => "float_type"
  | notFinite => "finite_number"
  | fractional => "int_from_float"
  | tooLarge => "int_parsing_size"
  | unreadableInteger => "int_parsing"
  | below _ => "greater_than_equal"
  | notList => "tuple_type"
  | tooShort => "too_short"
  | tooLong _ => "too_long"
  | notObject _ => "model_type"
  | unknownShape => "invalid_operator"
  | notOperator => "enum"
  | wrongShape _ _ => "value_error"
  | notDirection => "enum"

end Cause

/-- One step on the way to a part of a value. -/
inductive Step where
  | key (name : String)
  | index (i : Nat)
deriving DecidableEq, Repr

def Step.text : Step → String
  | .key name => name
  | .index i => toString i

structure Fault where
  path : List Step
  cause : Cause
deriving DecidableEq, Repr

def Fault.message (f : Fault) : String :=
  ".".intercalate (f.path.map Step.text) ++ ": " ++ f.cause.message

/-- The outcome of reading a value: what it says, or everything that is wrong with it. -/
abbrev Reading (α : Type) := Except (List Fault) α

namespace Reading

variable {α β : Type}

/-- A refusal at the value itself. -/
def refuse (cause : Cause) : Reading α := .error [⟨[], cause⟩]

/-- A reading of a part, with its faults located below the whole. -/
def below (step : Step) : Reading α → Reading α
  | .ok a => .ok a
  | .error faults => .error (faults.map fun f => { f with path := step :: f.path })

/-- Two readings side by side; the faults of the first come first. -/
def both : Reading α → Reading β → Reading (α × β)
  | .ok a, .ok b => .ok (a, b)
  | .ok _, .error fs => .error fs
  | .error fs, .ok _ => .error fs
  | .error fs, .error gs => .error (fs ++ gs)

/-- Readings of the items of a list, located by position from `start` on. -/
def items (read : Json → Reading α) : (start : Nat) → List Json → Reading (List α)
  | _, [] => .ok []
  | start, x :: xs =>
      (both ((read x).below (.index start)) (items read (start + 1) xs)).map fun p => p.1 :: p.2

/-- A list, each item read the same way. -/
def list (read : Json → Reading α) : Json → Reading (List α)
  | .arr xs => items read 0 xs
  | _ => refuse .notList

/-- Nothing, or a value. -/
def orNull (read : Json → Reading α) : Json → Reading (Option α)
  | .null => .ok none
  | value => (read value).map some

/-- The members of an object that stands for a model of the given name. -/
def object (model : String) : Json → Reading (List (String × Json))
  | .obj members => .ok members
  | _ => refuse (.notObject model)

end Reading

/-- A member may go by its name on the wire or by its plain name; the wire name is looked up
first. -/
structure FieldName where
  wire : String
  plain : String

/-- A member of one name only. -/
def FieldName.single (name : String) : FieldName := ⟨name, name⟩

/-- The name under which a member is present, and its value. -/
def FieldName.find? (name : FieldName) (members : List (String × Json)) :
    Option (String × Json) :=
  match members.lookup name.wire with
  | some value => some (name.wire, value)
  | none => (members.lookup name.plain).map fun value => (name.plain, value)

/-- A member that has to be present. -/
def FieldName.required {α : Type} (name : FieldName) (read : Json → Reading α)
    (members : List (String × Json)) : Reading α :=
  match name.find? members with
  | some (key, value) => (read value).below (.key key)
  | none => .error [⟨[.key name.wire], .missing⟩]

/-- A member that takes a usual value when absent. -/
def FieldName.withDefault {α : Type} (name : FieldName) (usual : α) (read : Json → Reading α)
    (members : List (String × Json)) : Reading α :=
  match name.find? members with
  | some (key, value) => (read value).below (.key key)
  | none => .ok usual

end IssueSearch
