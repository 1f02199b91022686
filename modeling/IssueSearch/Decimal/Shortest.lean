import IssueSearch.Decimal.Binary
import IssueSearch.Decimal.Rounding
/-!
Doubles in decimal text. The digits are the fewest that read back to the same double and, of
those, the nearest to its value; `Layout` says how digits become text.
-/
namespace IssueSearch.Decimal

/-- How many decimal digits a natural has; zero has one. -/
def digitCount (n : Nat) : Nat := (Nat.toDigits 10 n).length

/-- The reals that round to a positive double, as multiples of one unit `num / den`:
the double itself is `middle` units. -/
structure Span where
  low : Nat
  middle : Nat
  high : Nat
  den : Nat
  closed : Bool

/-- Half a spacing on either side, but a quarter below a power of two, where the spacing halves.
The ends round to the double itself when its significand is even. -/
def Span.ofBinary (significand : Nat) (exponent : Int) : Span :=
  let narrow := significand = Binary.hiddenBit ∧ Binary.leastExponent < exponent
  let num := Nat.pow 2 (exponent - 2).toNat
  { low := (4 * significand - if narrow then 1 else 2) * num
    middle := 4 * significand * num
    high := (4 * significand + 2) * num
    den := Nat.pow 2 (2 - exponent).toNat
    closed := significand % 2 = 0 }

/-- The span measured on the grid of multiples of `10 ^ exponent`. -/
def Span.onGrid (s : Span) (exponent : Int) : Span :=
  let up := Nat.pow 10 (-exponent).toNat
  { s with
    low := s.low * up
    middle := s.middle * up
    high := s.high * up
    den := s.den * Nat.pow 10 exponent.toNat }

/-- Whether `digits` grid units lie in the span. -/
def Span.holds (s : Span) (digits : Nat) : Bool :=
  let point := digits * s.den
  if s.closed then s.low ≤ point && point ≤ s.high else s.low < point && point < s.high

/-- The position of the first digit: the middle lies in `10 ^ (magnitude - 1) … 10 ^ magnitude`. -/
def Span.magnitude (s : Span) : Int :=
  if s.den ≤ s.middle then digitCount (s.middle / s.den)
  else 1 - (digitCount ((s.den - 1) / s.middle) : Int)

/-- The grid neighbour of the middle that lies in the span, the nearer of two, the even one of two
equally near. -/
def Span.neighbour? (s : Span) : Option Nat :=
  let below := s.middle / s.den
  let nearest := roundDiv s.middle s.den
  if s.holds nearest then some nearest
  else if s.holds below then some below
  else if s.holds (below + 1) then some (below + 1)
  else none

/-- The coarsest grid with a neighbour in the span, tried with `count` digits and up to `fuel`
more. -/
def Span.search (s : Span) (magnitude : Int) : (fuel count : Nat) → Nat × Int
  | 0, count => (s.middle / s.den, magnitude - count)
  | fuel + 1, count =>
      let exponent := magnitude - count
      match (s.onGrid exponent).neighbour? with
      | some digits => (digits, exponent)
      | none => s.search magnitude fuel (count + 1)

/-- Moves zeros at the end of the digits into the exponent. -/
def trimZeros : (fuel digits : Nat) → (exponent : Int) → Nat × Int
  | 0, digits, exponent => (digits, exponent)
  | fuel + 1, digits, exponent =>
      if digits % 10 = 0 then trimZeros fuel (digits / 10) (exponent + 1) else (digits, exponent)

/-- The fewest digits, and their scale, that read back to a positive double. Seventeen always
suffice. -/
def shortest (significand : Nat) (exponent : Int) : Nat × Int :=
  let s := Span.ofBinary significand exponent
  let found := s.search s.magnitude 17 1
  trimZeros 20 found.1 found.2

/-- How a decimal is laid out as text. -/
structure Layout where
  /-- Exponents of the first digit from here up to `positionalEnd` are written without exponent. -/
  positionalStart : Int
  positionalEnd : Int
  /-- The least number of digits of a written exponent. -/
  exponentWidth : Nat
  nan : String
  infinity : String

/-- The layout of every number this library writes: positional from `0.0001` up to but not
including `10 ^ 16`, and a signed exponent of at least two digits beyond. -/
def plain : Layout := ⟨-4, 16, 2, "nan", "inf"⟩

/-- The layout inside canonical texts, which spells out what is no finite number. -/
def spelledOut : Layout := ⟨-4, 16, 2, "NaN", "Infinity"⟩

def zeros (n : Nat) : List Char := List.replicate n '0'

/-- Digits with the point after `lead` of them, padded on either side so that one digit stands
before the point and one behind it. -/
def positional (digits : List Char) (lead : Int) : List Char :=
  if lead ≤ 0 then '0' :: '.' :: (zeros (-lead).toNat ++ digits)
  else
    let padded := digits ++ zeros (lead.toNat + 1 - digits.length)
    padded.take lead.toNat ++ '.' :: padded.drop lead.toNat

/-- Digits with the point after the first, then the signed exponent of that first digit. -/
def scientific (layout : Layout) (digits : List Char) (first : Int) : List Char :=
  let size := Nat.toDigits 10 first.natAbs
  let mantissa := match digits with
    | [] => []
    | [d] => [d]
    | d :: rest => d :: '.' :: rest
  mantissa ++ 'e' :: (if first < 0 then '-' else '+')
    :: (zeros (layout.exponentWidth - size.length) ++ size)

/-- A double as text in the given layout. -/
def chars (layout : Layout) (x : Float) : List Char :=
  let signed (negative : Bool) (text : List Char) := if negative then '-' :: text else text
  match Binary.ofFloat x with
  | .nan => layout.nan.toList
  | .infinite negative => signed negative layout.infinity.toList
  | .finite negative 0 _ => signed negative ['0', '.', '0']
  | .finite negative significand exponent =>
      let found := shortest significand exponent
      let digits := Nat.toDigits 10 found.1
      let lead := found.2 + digits.length
      signed negative <|
        if layout.positionalStart ≤ lead - 1 ∧ lead - 1 < layout.positionalEnd then
          positional digits lead
        else scientific layout digits (lead - 1)

/-- A double as plain text. -/
def text (x : Float) : String := String.ofList (chars plain x)

/-- A double as a whole number without point, nearest to its exact value. -/
def wholeText (x : Float) : String :=
  match Binary.ofFloat x with
  | .finite negative significand exponent =>
      let size := String.ofList (Nat.toDigits 10 (roundScaled significand exponent 1))
      if negative then "-" ++ size else size
  | _ => text x

end IssueSearch.Decimal
