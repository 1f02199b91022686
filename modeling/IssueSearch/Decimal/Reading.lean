import IssueSearch.Decimal.Rounding
/-!
Decimal text read as a double: an optional sign, digits with an optional point, an optional signed
exponent; or one of the words `nan` and `inf`. The result is the double nearest to the decimal.
-/
namespace IssueSearch.Decimal

/-- The value of ASCII digits, `none` if there are none or something else is among them. -/
def natOfDigits? (digits : List Char) : Option Nat :=
  if digits.isEmpty || !digits.all Char.isDigit then none
  else some (digits.foldl (fun n c => 10 * n + (c.toNat - 48)) 0)

/-- Splits a leading sign off; `true` is minus. -/
def splitSign : List Char → Bool × List Char
  | '-' :: rest => (true, rest)
  | '+' :: rest => (false, rest)
  | rest => (false, rest)

/-- An exponent: an optional sign and digits. -/
def intOfDigits? (text : List Char) : Option Int :=
  let (negative, digits) := splitSign text
  (natOfDigits? digits).map fun n => if negative then -(n : Int) else n

/-- Digits with an optional point, as digits scaled by a power of ten. -/
def fixed? (text : List Char) : Option (Nat × Int) :=
  let whole := text.takeWhile (· != '.')
  let fraction := (text.dropWhile (· != '.')).drop 1
  (natOfDigits? (whole ++ fraction)).map fun n => (n, -(fraction.length : Int))

/-- The double that the characters write. -/
def ofChars? (text : List Char) : Option Float :=
  let (negative, size) := splitSign text
  if size = "inf".toList then some (if negative then -(1.0 / 0.0) else 1.0 / 0.0)
  else if size = "nan".toList then some (0.0 / 0.0)
  else do
    let (digits, scale) ← fixed? (size.takeWhile (· != 'e'))
    let exponent ← match size.dropWhile (· != 'e') with
      | [] => some 0
      | _ :: rest => intOfDigits? rest
    return toFloat negative digits (scale + exponent)

/-- The double that a text writes. -/
def ofText? (text : String) : Option Float := ofChars? text.toList

end IssueSearch.Decimal
