import IssueSearch.Decimal.Reading
import IssueSearch.Json.Basic
/-!
JSON text read as a value. Numbers without point and exponent are integers, others doubles; of
members with one name the last value counts, at the first place. Half of a surrogate pair by itself
is read as the replacement character.
-/
namespace IssueSearch.Json

/-- A text without the blanks before its first token. -/
def skipBlanks (text : List Char) : List Char :=
  text.dropWhile fun c => c = ' ' || c = '\n' || c = '\r' || c = '\t'

/-- The value of a hexadecimal digit. -/
def hexValue? (c : Char) : Option Nat :=
  if c.isDigit then some (c.toNat - 48)
  else if 'a' ≤ c ∧ c ≤ 'f' then some (c.toNat - 87)
  else if 'A' ≤ c ∧ c ≤ 'F' then some (c.toNat - 55)
  else none

/-- Four hexadecimal digits as a sixteen-bit unit. -/
def unit? : List Char → Option (Nat × List Char)
  | a :: b :: c :: d :: rest => do
      let a ← hexValue? a
      let b ← hexValue? b
      let c ← hexValue? c
      let d ← hexValue? d
      return (((a * 16 + b) * 16 + c) * 16 + d, rest)
  | _ => none

/-- The second half of a surrogate pair. -/
def trailing? : List Char → Option (Nat × List Char)
  | '\\' :: 'u' :: rest =>
      (unit? rest).filter fun found => 0xDC00 ≤ found.1 && found.1 < 0xE000
  | _ => none

/-- A unit together with the second half of its pair, if it is the first. -/
def joinUnits (unit : Nat) (rest : List Char) : Char × List Char :=
  if 0xD800 ≤ unit ∧ unit < 0xDC00 then
    match trailing? rest with
    | some (second, rest) =>
        (Char.ofNat (0x10000 + (unit - 0xD800) * 0x400 + (second - 0xDC00)), rest)
    | none => ('\uFFFD', rest)
  else if 0xDC00 ≤ unit ∧ unit < 0xE000 then ('\uFFFD', rest)
  else (Char.ofNat unit, rest)

/-- The character of an escape, behind its backslash. -/
def escaped? : List Char → Option (Char × List Char)
  | 'n' :: rest => some ('\n', rest)
  | 'r' :: rest => some ('\r', rest)
  | 't' :: rest => some ('\t', rest)
  | 'b' :: rest => some ('\x08', rest)
  | 'f' :: rest => some ('\x0c', rest)
  | 'u' :: rest => (unit? rest).map fun (unit, rest) => joinUnits unit rest
  | c :: rest => if c = '\x22' ∨ c = '\\' ∨ c = '/' then some (c, rest) else none
  | [] => none

/-- The characters of a string up to its closing quote, put before `taken` in reverse. -/
def stringRest : (fuel : Nat) → (taken text : List Char) → Option (String × List Char)
  | 0, _, _ => none
  | _, _, [] => none
  | fuel + 1, taken, c :: rest =>
      if c = '\x22' then some (String.ofList taken.reverse, rest)
      else if c = '\\' then
        (escaped? rest).bind fun (c, rest) => stringRest fuel (c :: taken) rest
      else stringRest fuel (c :: taken) rest

/-- A number. -/
def number? (text : List Char) : Option (Json × List Char) :=
  let isPart (c : Char) : Bool :=
    c.isDigit || c = '-' || c = '+' || c = '.' || c = 'e' || c = 'E'
  let token := (text.takeWhile isPart).map Char.toLower
  let rest := text.dropWhile isPart
  if token.any fun c => c = '.' || c = 'e' then
    (Decimal.ofChars? token).map fun x => (float x, rest)
  else (Decimal.intOfDigits? token).map fun n => (int n, rest)

/-- A word with a value of its own. -/
def word? (text : List Char) : Option (Json × List Char) :=
  [("null", null), ("true", bool true), ("false", bool false)].findSome? fun (word, value) =>
    if word.toList.isPrefixOf text then some (value, text.drop word.length) else none

mutual

/-- A value at the beginning of a text, and the text behind it. -/
def value? : (fuel : Nat) → List Char → Option (Json × List Char)
  | 0, _ => none
  | fuel + 1, text =>
      match skipBlanks text with
      | '\x22' :: rest =>
          (stringRest fuel [] rest).map fun (s, rest) => (str s, rest)
      | '[' :: rest =>
          match skipBlanks rest with
          | ']' :: rest => some (arr [], rest)
          | rest => (items? fuel [] rest).map fun (items, rest) => (arr items, rest)
      | '\x7b' :: rest =>
          match skipBlanks rest with
          | '\x7d' :: rest => some (obj [], rest)
          | rest => (members? fuel [] rest).map fun (members, rest) => (obj members, rest)
      | rest => (word? rest).orElse fun _ => number? rest

/-- Items up to the closing bracket, put before `taken` in reverse. -/
def items? : (fuel : Nat) → (taken : List Json) → List Char → Option (List Json × List Char)
  | 0, _, _ => none
  | fuel + 1, taken, text =>
      (value? fuel text).bind fun (item, rest) =>
        match skipBlanks rest with
        | ',' :: rest => items? fuel (item :: taken) rest
        | ']' :: rest => some ((item :: taken).reverse, rest)
        | _ => none

/-- Members up to the closing brace, put behind `taken`. -/
def members? : (fuel : Nat) → (taken : List (String × Json)) → List Char →
    Option (List (String × Json) × List Char)
  | 0, _, _ => none
  | fuel + 1, taken, text =>
      match skipBlanks text with
      | '\x22' :: rest =>
          (stringRest fuel [] rest).bind fun (name, rest) =>
            match skipBlanks rest with
            | ':' :: rest =>
                (value? fuel rest).bind fun (value, rest) =>
                  let taken := insertMember taken name value
                  match skipBlanks rest with
                  | ',' :: rest => members? fuel taken rest
                  | '\x7d' :: rest => some (taken, rest)
                  | _ => none
            | _ => none
      | _ => none

end

/-- The value that a whole text writes. No character takes more than two steps. -/
def ofText? (text : String) : Option Json :=
  let chars := text.toList
  (value? (2 * chars.length + 2) chars).bind fun (value, rest) =>
    if (skipBlanks rest).isEmpty then some value else none

end IssueSearch.Json
