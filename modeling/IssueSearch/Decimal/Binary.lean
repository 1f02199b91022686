/-!
The exact value behind a double: not a number, an infinity, or a signed multiple of a power of two.
Every decimal form in this library is computed from this view with natural numbers, never from a
rounded intermediate.
-/
namespace IssueSearch

/-- The value of a double, `± significand · 2 ^ exponent` when it is finite. -/
inductive Binary where
  | nan
  | infinite (negative : Bool)
  | finite (negative : Bool) (significand : Nat) (exponent : Int)
deriving DecidableEq, Repr

namespace Binary

/-- Every finite double is a multiple of `2 ^ leastExponent`. -/
def leastExponent : Int := -1074

/-- The smallest significand of a normal double. -/
def hiddenBit : Nat := Nat.pow 2 52

/-- Splits the sixty-four bits into sign, biased exponent and fraction. -/
def ofFloat (x : Float) : Binary :=
  let bits := x.toBits.toNat
  let negative := bits / Nat.pow 2 63 == 1
  let biased := bits / hiddenBit % 2048
  let fraction := bits % hiddenBit
  if biased = 2047 then
    if fraction = 0 then .infinite negative else .nan
  else if biased = 0 then .finite negative fraction leastExponent
  else .finite negative (hiddenBit + fraction) (biased - 1075)

end Binary

/-- A point of the extended number line, measured in units of `2 ^ Binary.leastExponent`. -/
inductive Position where
  | below
  | at (units : Int)
  | above
deriving DecidableEq, Repr

namespace Position

/-- The order of the line: the two ends enclose every measured point. -/
def lt : Position → Position → Bool
  | .at a, .at b => a < b
  | .below, .at _ => true
  | .below, .above => true
  | .at _, .above => true
  | _, _ => false

/-- The order of points that may be missing: nothing lies before or behind a missing one. -/
def before : Option Position → Option Position → Bool
  | some p, some q => p.lt q
  | _, _ => false

/-- How many units one measures. -/
def one : Nat := Nat.pow 2 (-Binary.leastExponent).toNat

/-- Where an integer lies. -/
def ofInt (n : Int) : Position := .at (n * (one : Nat))

/-- Where a double lies; not a number lies nowhere. -/
def ofBinary? : Binary → Option Position
  | .nan => none
  | .infinite negative => some (if negative then .below else .above)
  | .finite negative significand exponent =>
      let units : Int :=
        (significand * Nat.pow 2 (exponent - Binary.leastExponent).toNat : Nat)
      some (.at (if negative then -units else units))

end Position
end IssueSearch
