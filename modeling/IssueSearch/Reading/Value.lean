import IssueSearch.Decimal.Range
import IssueSearch.Decimal.Reading
import IssueSearch.Filter.Basic
import IssueSearch.Reading.Fault
import IssueSearch.Text.CharSet
/-!
Readings of single values. Texts are taken as they are; flags and counts are also taken from
numbers and texts that say the same; scalars keep their kind.
-/
namespace IssueSearch.Reading

def text : Json → Reading String
  | .str s => .ok s
  | _ => refuse .notText

/-- A double as an integer; the bounds of sixty-four bits are not reached. -/
def integerOfFloat (x : Float) : Except Cause Int :=
  match Binary.ofFloat x with
  | .finite negative significand exponent =>
      let scaled := significand * Nat.pow 2 exponent.toNat
      let unit := Nat.pow 2 (-exponent).toNat
      let size := scaled / unit
      if scaled % unit ≠ 0 then .error .fractional
      else if Nat.pow 2 63 ≤ size then .error .tooLarge
      else .ok (if negative then -size else size)
  | _ => .error .notFinite

/-- The words for yes and no, in any ASCII case. -/
def flagOfText? (s : String) : Option Bool :=
  let word := s.toList.map Char.toLower
  if ["0", "off", "f", "false", "n", "no"].any (·.toList == word) then some false
  else if ["1", "on", "t", "true", "y", "yes"].any (·.toList == word) then some true
  else none

/-- Zero and one as flags. -/
def flagOfInt (n : Int) : Reading Bool :=
  if n = 0 then .ok false else if n = 1 then .ok true else refuse .unreadableFlag

def flag : Json → Reading Bool
  | .bool b => .ok b
  | .int n => if isWord n then flagOfInt n else refuse .notFlag
  | .float x =>
      match integerOfFloat x with
      | .ok n => flagOfInt n
      | .error _ => refuse .notFlag
  | .str s =>
      match flagOfText? s with
      | some b => .ok b
      | none => refuse .unreadableFlag
  | _ => refuse .notFlag

/-- A text that begins with a zero, from its first other digit, its first minus or the zero before
its point; underscores among the zeros go as well. `last` is the zero or underscore met before. -/
def afterZeros (last : Char) : List Char → Option (List Char)
  | [] => some [last]
  | c :: rest =>
      if c = '0' ∨ c = '_' then afterZeros c rest
      else if c = '.' then some (last :: c :: rest)
      else if c.isDigit ∨ c = '-' then some (c :: rest)
      else none

/-- A text without zeros that say nothing. It begins with a digit. -/
def fromFirstDigit? : List Char → Option (List Char)
  | [] => none
  | c :: rest =>
      if c = '0' then afterZeros c rest
      else if c.isDigit then some (c :: rest)
      else none

/-- A text without zeros that say nothing, behind a minus if it begins with one. -/
def withoutLeadingZeros? : List Char → Option (List Char)
  | '-' :: rest => (fromFirstDigit? rest).map ('-' :: ·)
  | text => fromFirstDigit? text

/-- A text without its plus, which no minus may follow. -/
def withoutPlus? : List Char → Option (List Char)
  | '+' :: '-' :: _ => none
  | '+' :: rest => some rest
  | text => some text

/-- A text without a point that only zeros follow, one at least. -/
def withoutFraction (text : List Char) : List Char :=
  let fraction := (text.dropWhile (· != '.')).drop 1
  if !fraction.isEmpty && fraction.all (· == '0') then text.takeWhile (· != '.') else text

/-- Whether no underscore stands beside another. -/
def singleUnderscores : List Char → Bool
  | '_' :: '_' :: _ => false
  | _ :: rest => singleUnderscores rest
  | [] => true

/-- A text without underscores, if they are single and stand between other characters. -/
def withoutUnderscores (text : List Char) : List Char :=
  if singleUnderscores text && text.head? != some '_' && text.getLast? != some '_' then
    text.filter (· != '_')
  else text

/-- The longest sign with digits that is read. -/
def longestInteger : Nat := 4300

/-- An optional minus and digits, the first of which is zero only if it is the only one. The length
of the digits is looked at before what follows them. -/
def plainInteger (text : List Char) : Except Cause Int :=
  let (negative, body) := match text with
    | '-' :: rest => (true, rest)
    | _ => (false, text)
  match body with
  | ['0'] => .ok 0
  | '0' :: _ => .error .unreadableInteger
  | _ =>
      let digits := body.takeWhile Char.isDigit
      if longestInteger < digits.length + (if negative then 1 else 0) then .error .tooLarge
      else match Decimal.natOfDigits? body with
        | some n => .ok (if negative then -(n : Int) else n)
        | none => .error .unreadableInteger

/-- An integer as a text with room for grouping: spacing around it, a plus, zeros in front,
underscores between digits, and a fraction of zeros are all left out. -/
def integerOfText (s : String) : Except Cause Int :=
  match (withoutPlus? (Text.trimSpacing s.toList)).bind withoutLeadingZeros? with
  | some text => plainInteger (withoutUnderscores (withoutFraction text))
  | none => .error .unreadableInteger

def integer : Json → Reading Int
  | .bool b => .ok (if b then 1 else 0)
  | .int n => .ok n
  | .float x =>
      match integerOfFloat x with
      | .ok n => .ok n
      | .error cause => refuse cause
  | .str s =>
      match integerOfText s with
      | .ok n => .ok n
      | .error cause => refuse cause
  | _ => refuse .notInteger

/-- A count that is not below `least`. -/
def count (least : Nat) (value : Json) : Reading { n : Nat // least ≤ n } :=
  (integer value).bind fun n =>
    if h : (least : Int) ≤ n then .ok ⟨n.toNat, by omega⟩ else refuse (.below least)

/-- The refusal of a value that is no scalar, once for each kind that it might have had. -/
def noScalar : List Fault := [
  ⟨[.key "bool"], .notFlag⟩, ⟨[.key "int"], .notInteger⟩,
  ⟨[.key "float"], .notNumber⟩, ⟨[.key "str"], .notText⟩]

def scalar (value : Json) : Reading Scalar :=
  match Scalar.ofJson? value with
  | some s => .ok s
  | none => .error noScalar

end IssueSearch.Reading
