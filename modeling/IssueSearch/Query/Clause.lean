import IssueSearch.Query.Grammar
/-!
Single filters as clauses of a query. Negation is a dash in front: of the whole clause, of every
clause of a list, or inside a clause on presence. A list is joined by "or", and by nothing when
negated; an exempt field takes its list with commas, without the values that hold blanks.
-/
namespace IssueSearch

/-- Why a filter has no clause. -/
inductive ClauseError where
  | noValue (field : String) (operator : Comparison)
  | blankValue (field : String) (operator : Option Operator) (value : Scalar)
  | allBlank (field : String) (operator : Membership) (values : List Scalar)
deriving DecidableEq

namespace ClauseError

/-- What values of an exempt field look like. -/
def advice : String := "Use values without spaces like: Open, Done, Duplicate"

def message : ClauseError → String
  | noValue field operator =>
      "Filter on '" ++ field ++ "' with operator '" ++ operator.name ++ "' has no value"
  | blankValue field _ value =>
      field ++ " values with spaces (like \"" ++ value.text ++ "\") cannot be queried. " ++ advice
  | allBlank field _ values =>
      "All provided " ++ field ++ " values contain spaces and cannot be queried: " ++
        ", ".intercalate (values.map Scalar.text) ++ ". " ++ advice

def field : ClauseError → String
  | noValue field _ => field
  | blankValue field _ _ => field
  | allBlank field _ _ => field

def operator? : ClauseError → Option Operator
  | noValue _ operator => some (.compare operator)
  | blankValue _ operator _ => operator
  | allBlank _ operator _ => some (.member operator)

/-- The value that could not be written. -/
def value : ClauseError → Json
  | noValue _ _ => .null
  | blankValue _ _ value => value.toJson
  | allBlank _ _ values => .arr (values.map Scalar.toJson)

end ClauseError

/-- Values of an exempt list that were left out because they hold blanks. -/
structure Dropped where
  field : String
  dropped : List String
  kept : List String
deriving DecidableEq, Repr

def Dropped.message (d : Dropped) : String :=
  "Some " ++ d.field ++ " values with spaces were filtered out (" ++
    ", ".intercalate d.dropped ++ "). Using: " ++ ", ".intercalate d.kept

/-- A filter as it stands in a query, with the values that it lost. -/
structure Clause where
  text : String
  dropped : Option Dropped := none
deriving DecidableEq, Repr

namespace Grammar

/-- A value behind `field:` in a filter with the given operator. -/
def writeFor (g : Grammar) (field : String) (operator : Option Operator) (rangeBound : Bool)
    (value : Scalar) : Except ClauseError String :=
  match g.write? field rangeBound value.text with
  | some text => .ok text
  | none => .error (.blankValue field operator value)

/-- A value behind `field:` by itself; a value left out is written as a word. -/
def escape (g : Grammar) (field : String) (rangeBound : Bool) :
    Option Scalar → Except ClauseError String
  | some value => g.writeFor field none rangeBound value
  | none => g.writeFor field none rangeBound (.str "None")

/-- The mark of negation. -/
def mark (negated : Bool) : String := if negated then "-" else ""

/-- A field with what stands behind its colon. -/
def atom (negated : Bool) (field text : String) : String := mark negated ++ field ++ ": " ++ text

/-- The part of a clause behind the colon for a comparison: a bound is open on one side. -/
def comparisonText (operator : Comparison) (text : String) : String :=
  match operator with
  | .greater => text ++ ".."
  | .less => ".." ++ text
  | _ => text

/-- Bounds of ranges are written with dashes bare. -/
def isBound : Comparison → Bool
  | .greater | .less => true
  | _ => false

/-- The list of an exempt field. Values with blanks are left out, but not all of them. -/
def exemptClause (field : String) (operator : Membership) (negated : Bool)
    (values : List Scalar) : Except ClauseError Clause :=
  let texts := values.map Scalar.text
  let kept := texts.filter fun text => !Text.hasBlank text
  let dropped := texts.filter Text.hasBlank
  if kept.isEmpty then .error (.allBlank field operator values)
  else .ok {
    text := atom negated field (",".intercalate kept)
    dropped := if dropped.isEmpty then none else some ⟨field, dropped, kept⟩ }

/-- The clause of a filter. -/
def clause (g : Grammar) (f : Filter) : Except ClauseError Clause :=
  match f.condition with
  | .compare operator none => .error (.noValue f.field operator)
  | .compare operator (some value) => do
      let text ← g.writeFor f.field (some f.operator) (isBound operator) value
      return { text := atom f.negate f.field (comparisonText operator text) }
  | .member operator first rest => do
      let negated := f.negate != (operator == .notIn)
      let values := first :: rest
      if g.isExempt f.field then exemptClause f.field operator negated values
      else
        let texts ← values.mapM (g.writeFor f.field (some f.operator) false)
        let joiner := if negated then " " else " or "
        return { text := joiner.intercalate (texts.map (atom negated f.field)) }
  | .between low high => do
      let low ← g.writeFor f.field (some f.operator) true low
      let high ← g.writeFor f.field (some f.operator) true high
      return { text := atom f.negate f.field (low ++ ".." ++ high) }
  | .presence operator =>
      .ok { text := "has: " ++ mark ((operator == .isEmpty) != f.negate) ++ f.field }

end Grammar
end IssueSearch
