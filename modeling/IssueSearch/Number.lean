import IssueSearch.Decimal.Range
import IssueSearch.Decimal.Shortest
import IssueSearch.Json.Basic
/-!
Numbers that remember whether they are flags, integers or doubles. Flags count as zero and one.
Comparisons are by exact value across the kinds; a double that is not a number compares as false
with everything.
-/
namespace IssueSearch

inductive Number where
  | flag (value : Bool)
  | int (value : Int)
  | float (value : Float)
deriving DecidableEq

namespace Number

/-- The number that a value is. -/
def ofJson? : Json → Option Number
  | .bool b => some (.flag b)
  | .int n => some (.int n)
  | .float x => some (.float x)
  | _ => none

def toJson : Number → Json
  | .flag b => .bool b
  | .int n => .int n
  | .float x => .float x

/-- The integer that a flag or an integer counts as. -/
def integer? : Number → Option Int
  | .flag b => some (if b then 1 else 0)
  | .int n => some n
  | .float _ => none

/-- Where a number lies on the line. -/
def position? : Number → Option Position
  | .flag b => some (.ofInt (if b then 1 else 0))
  | .int n => some (.ofInt n)
  | .float x => Position.ofBinary? (Binary.ofFloat x)

/-- Strict comparison by exact value. -/
def lt (a b : Number) : Bool := Position.before a.position? b.position?

/-- The nearest double. -/
def toFloat : Number → Except Overflow Float
  | .flag b => .ok (if b then 1.0 else 0.0)
  | .int n => Decimal.nearest n
  | .float x => .ok x

/-- Flags by their words, integers by their digits, doubles by the fewest digits that read back. -/
def text : Number → String
  | .flag b => if b then "True" else "False"
  | .int n => toString n
  | .float x => Decimal.text x

/-- The nearest double as a whole number without point. -/
def wholeText (a : Number) : Except Overflow String := a.toFloat.map Decimal.wholeText

/-- A sum without doubles is an integer, any other sum a double. -/
def add (a b : Number) : Except Overflow Number :=
  match a.integer?, b.integer? with
  | some m, some n => .ok (.int (m + n))
  | _, _ => do
      let x ← a.toFloat
      let y ← b.toFloat
      return .float (x + y)

/-- The sum from left to right, starting from the integer zero. -/
def sum (xs : List Number) : Except Overflow Number := xs.foldlM add (.int 0)

/-- A number divided by a positive natural, as the nearest double. -/
def divNat (a : Number) (n : Nat) : Except Overflow Float :=
  match a with
  | .flag b => Decimal.nearestQuotient (if b then 1 else 0) n
  | .int k => Decimal.nearestQuotient k n
  | .float x => .ok (x / Decimal.ofInt n)

end Number
end IssueSearch
