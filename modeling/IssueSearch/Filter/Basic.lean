import IssueSearch.Operator
/-!
Structured filters. What a filter asks of its field is its condition, one of four shapes; the
operator is part of the condition, so that no filter has an operator of another shape, a list
without values or a range without two bounds.
-/
namespace IssueSearch

/-- The values that filters compare with. -/
inductive Scalar where
  | bool (value : Bool)
  | int (value : Int)
  | float (value : Float)
  | str (value : String)
deriving DecidableEq

namespace Scalar

/-- The text of a value in a query. -/
def text : Scalar → String
  | bool b => if b then "true" else "false"
  | int n => toString n
  | float x => Decimal.text x
  | str s => s

def toJson : Scalar → Json
  | bool b => .bool b
  | int n => .int n
  | float x => .float x
  | str s => .str s

/-- The scalars among the JSON values, each with its kind kept. -/
def ofJson? : Json → Option Scalar
  | .bool b => some (bool b)
  | .int n => some (int n)
  | .float x => some (float x)
  | .str s => some (str s)
  | _ => none

theorem ofJson?_toJson (s : Scalar) : ofJson? s.toJson = some s := by cases s <;> rfl

end Scalar

/-- What a filter asks of its field. -/
inductive Condition where
  /-- A comparison with one value, which may have been left out. -/
  | compare (operator : Comparison) (value : Option Scalar)
  /-- Membership in a list of at least one value. -/
  | member (operator : Membership) (first : Scalar) (rest : List Scalar)
  | between (low high : Scalar)
  | presence (operator : Presence)
deriving DecidableEq

def Condition.operator : Condition → Operator
  | .compare c _ => .compare c
  | .member m _ _ => .member m
  | .between _ _ => .between
  | .presence p => .presence p

/-- The shape of a condition. -/
def Condition.shape : Condition → Shape
  | .compare _ _ => .scalar
  | .member _ _ _ => .list
  | .between _ _ => .range
  | .presence _ => .existence

/-- The values of a condition, in order. -/
def Condition.values : Condition → List Scalar
  | .compare _ value => value.toList
  | .member _ first rest => first :: rest
  | .between low high => [low, high]
  | .presence _ => []

structure Filter where
  field : String
  negate : Bool := false
  condition : Condition
deriving DecidableEq

def Filter.operator (f : Filter) : Operator := f.condition.operator

end IssueSearch
