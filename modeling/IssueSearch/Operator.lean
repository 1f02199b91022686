import IssueSearch.Json.Text
import IssueSearch.Text.Similarity
/-!
The comparison operators of structured filters. Each belongs to one family, which decides what
value its filter takes.
-/
namespace IssueSearch

/-- Operators that compare a field with one value. -/
inductive Comparison where
  | equals | contains | startsWith | endsWith | greater | less
deriving DecidableEq, Repr

/-- Operators that look for a field among several values. -/
inductive Membership where
  | isIn | notIn
deriving DecidableEq, Repr

/-- Operators that ask whether a field is set at all. -/
inductive Presence where
  | isEmpty | isNotEmpty
deriving DecidableEq, Repr

inductive Operator where
  | compare (operator : Comparison)
  | member (operator : Membership)
  | between
  | presence (operator : Presence)
deriving DecidableEq, Repr

def Comparison.name : Comparison → String
  | .equals => "equals"
  | .contains => "contains"
  | .startsWith => "startsWith"
  | .endsWith => "endsWith"
  | .greater => "greater"
  | .less => "less"

def Membership.name : Membership → String
  | .isIn => "in"
  | .notIn => "notIn"

def Presence.name : Presence → String
  | .isEmpty => "isEmpty"
  | .isNotEmpty => "isNotEmpty"

/-- A family of operators, which is also the shape of the filters they make. -/
inductive Shape where
  | scalar | list | range | existence
deriving DecidableEq, Repr

/-- The word for a shape in the location of a fault. -/
def Shape.tag : Shape → String
  | .scalar => "scalar"
  | .list => "list"
  | .range => "range"
  | .existence => "existence"

/-- The name of the filters of a shape. -/
def Shape.filterName : Shape → String
  | .scalar => "ScalarFilter"
  | .list => "ListFilter"
  | .range => "RangeFilter"
  | .existence => "ExistenceFilter"

/-- An operator name that is not known, with the names that are. -/
structure UnknownOperator where
  operator : String
  valid : List String
deriving DecidableEq, Repr

namespace UnknownOperator

/-- The known names closest to the one given. -/
def suggestions (e : UnknownOperator) : List String := Text.closeMatches e.operator e.valid

/-- The known names in order of code points. -/
def sortedValid (e : UnknownOperator) : List String := e.valid.mergeSort fun a b => decide (a ≤ b)

def message (e : UnknownOperator) : String :=
  let hint :=
    if e.suggestions.isEmpty then ""
    else " Did you mean: " ++ ", ".intercalate e.suggestions ++ "?"
  "Unknown operator: '" ++ e.operator ++ "'." ++ hint ++ " Valid operators: " ++
    ", ".intercalate e.sortedValid

end UnknownOperator

namespace Operator

/-- Every operator, in the order in which they are documented. -/
def all : List Operator := [
  .compare .equals, .compare .contains, .compare .startsWith, .compare .endsWith,
  .member .isIn, .member .notIn,
  .compare .greater, .compare .less, .between,
  .presence .isEmpty, .presence .isNotEmpty]

def name : Operator → String
  | .compare c => c.name
  | .member m => m.name
  | .between => "between"
  | .presence p => p.name

def shape : Operator → Shape
  | .compare _ => .scalar
  | .member _ => .list
  | .between => .range
  | .presence _ => .existence

def names : List String := all.map name

/-- The operator of a name. -/
def ofName? (text : String) : Option Operator := all.find? (·.name == text)

/-- The operator that a value names; only texts name operators. -/
def ofJson? : Json → Option Operator
  | .str text => ofName? text
  | _ => none

/-- The operator that a value names, or what to say of a value that names none. -/
def parse (raw : Json) : Except UnknownOperator Operator :=
  match ofJson? raw with
  | some operator => .ok operator
  | none => .error ⟨raw.display, names⟩

theorem mem_all (o : Operator) : o ∈ all := by
  rcases o with c | m | _ | p
  · cases c <;> decide
  · cases m <;> decide
  · decide
  · cases p <;> decide

/-- Every operator is found under its own name. -/
theorem ofName?_name (o : Operator) : ofName? o.name = some o := by
  rcases o with c | m | _ | p
  · cases c <;> rfl
  · cases m <;> rfl
  · rfl
  · cases p <;> rfl

end Operator
end IssueSearch
