import IssueSearch.Decimal.Binary
/-!
Rounding of exact values: quotients of naturals go to the nearest natural and a half goes to the
even neighbour. Rounding a double to decimal places rounds its exact value, then takes the double
nearest to the decimal obtained.
-/
namespace IssueSearch

/-- The natural nearest to `numerator / denominator`; a tie goes to the even one. -/
def roundDiv (numerator denominator : Nat) : Nat :=
  let quotient := numerator / denominator
  let rest := numerator % denominator
  if 2 * rest < denominator then quotient
  else if denominator < 2 * rest then quotient + 1
  else quotient + quotient % 2

/-- `significand · 2 ^ exponent · scale`, rounded to the nearest natural. -/
def roundScaled (significand : Nat) (exponent : Int) (scale : Nat) : Nat :=
  if 0 ≤ exponent then significand * Nat.pow 2 exponent.toNat * scale
  else roundDiv (significand * scale) (Nat.pow 2 (-exponent).toNat)

namespace Decimal

/-- The double nearest to `± digits · 10 ^ exponent`. -/
def toFloat (negative : Bool) (digits : Nat) (exponent : Int) : Float :=
  let size := Float.ofScientific digits (exponent < 0) exponent.natAbs
  if negative then -size else size

/-- The double nearest to an integer. -/
def ofInt (n : Int) : Float := toFloat (n < 0) n.natAbs 0

/-- The double nearest to a quotient of naturals, for a positive denominator. The quotient is taken
to at least sixty-six binary digits, the last of which also stands for all that are cut off; so it
rounds as the exact quotient does. -/
def ofRatio (numerator denominator : Nat) : Float :=
  let shift := 66 + denominator.log2 - numerator.log2
  let scaled := numerator * Nat.pow 2 shift
  let quotient := scaled / denominator
  let rest := scaled % denominator
  let sticky := if rest = 0 then quotient else quotient / 2 * 2 + 1
  (toFloat false sticky 0).scaleB (-(shift : Int))

/-- A double rounded to `places` decimal places; what is not finite stays. -/
def roundTo (places : Nat) (x : Float) : Float :=
  match Binary.ofFloat x with
  | .finite negative significand exponent =>
      toFloat negative (roundScaled significand exponent (Nat.pow 10 places)) (-(places : Int))
  | _ => x

end Decimal
end IssueSearch
