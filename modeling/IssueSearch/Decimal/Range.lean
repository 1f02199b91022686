import IssueSearch.Decimal.Rounding
/-!
Where doubles and sixty-four-bit integers end. An integer or a quotient of integers that would
round past the greatest double has no nearest double; what needs one fails.
-/
namespace IssueSearch

/-- What lies beyond all doubles. -/
inductive Overflow where
  | integer
  | quotient
deriving DecidableEq, Repr

def Overflow.message : Overflow → String
  | .integer => "int too large to convert to float"
  | .quotient => "integer division result too large for a float"

namespace Decimal

/-- The least natural that rounds past the greatest double: it lies half a spacing behind it. -/
def beyondDoubles : Nat := Nat.pow 2 1024 - Nat.pow 2 970

/-- The double nearest to an integer. -/
def nearest (n : Int) : Except Overflow Float :=
  if beyondDoubles ≤ n.natAbs then .error .integer else .ok (ofInt n)

/-- The double nearest to a quotient, for a positive denominator. -/
def nearestQuotient (numerator : Int) (denominator : Nat) : Except Overflow Float :=
  if beyondDoubles * denominator ≤ numerator.natAbs then .error .quotient
  else
    let size := ofRatio numerator.natAbs denominator
    .ok (if numerator < 0 then -size else size)

end Decimal

/-- Whether an integer fits into sixty-four bits with a sign. -/
def isWord (n : Int) : Bool :=
  if 0 ≤ n then n.natAbs < Nat.pow 2 63 else n.natAbs ≤ Nat.pow 2 63

end IssueSearch
