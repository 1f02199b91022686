import IssueSearch.Decimal.Shortest
import IssueSearch.Json.Basic
import IssueSearch.Text.Quoted
/-!
JSON values as text, in two families.

`Json.chars` writes JSON proper, in ASCII only: the canonical form sorts members by name and leaves
no space, so that values equal up to the order of members have one text; the line form keeps the
order of members and puts a space behind commas and colons.

`Json.literal` writes the form in which messages show a value.
-/
namespace IssueSearch.Json

/-- A sixteen-bit unit as an escape. -/
def unitEscape (unit : Nat) : List Char := '\\' :: 'u' :: Text.hexDigits 4 unit

/-- One character of a JSON string. Beyond sixteen bits a character is a pair of surrogates. -/
def escapeChar (c : Char) : List Char :=
  if c = '\x22' then ['\\', '\x22']
  else if c = '\\' then ['\\', '\\']
  else if c = '\n' then ['\\', 'n']
  else if c = '\r' then ['\\', 'r']
  else if c = '\t' then ['\\', 't']
  else if c = '\x08' then ['\\', 'b']
  else if c = '\x0c' then ['\\', 'f']
  else if 0x20 ≤ c.toNat ∧ c.toNat < 0x7F then [c]
  else if c.toNat < 0x10000 then unitEscape c.toNat
  else
    unitEscape (0xD800 + (c.toNat - 0x10000) / 0x400) ++
      unitEscape (0xDC00 + (c.toNat - 0x10000) % 0x400)

/-- A text as a JSON string. -/
def stringChars (text : String) : List Char :=
  '\x22' :: text.toList.flatMap escapeChar ++ ['\x22']

/-- What stands between items, between a name and its value, and whether names are sorted. -/
structure Spacing where
  comma : List Char
  colon : List Char
  sorted : Bool

/-- No spaces, names in order of code points. -/
def canonical : Spacing := ⟨[','], [':'], true⟩

/-- A space behind each comma and colon, members in their own order. -/
def line : Spacing := ⟨[',', ' '], [':', ' '], false⟩

/-- Puts written members in order of their names, if the spacing asks for it. -/
def Spacing.arrange (spacing : Spacing) (members : List (String × List Char)) :
    List (String × List Char) :=
  if spacing.sorted then members.mergeSort fun a b => decide (a.1 ≤ b.1) else members

/-- A written member. -/
def Spacing.member (spacing : Spacing) (name : String) (value : List Char) : List Char :=
  stringChars name ++ spacing.colon ++ value

mutual

/-- A value as JSON text. A foreign value is written as a string. -/
def chars (spacing : Spacing) : Json → List Char
  | null => "null".toList
  | bool b => if b then "true".toList else "false".toList
  | int n => (toString n).toList
  | float x => Decimal.chars Decimal.spelledOut x
  | str s => stringChars s
  | foreign s => stringChars s
  | arr items => '[' :: spacing.comma.intercalate (itemChars spacing items) ++ [']']
  | obj members =>
      '\x7b' :: spacing.comma.intercalate
        ((spacing.arrange (memberChars spacing members)).map fun m => spacing.member m.1 m.2)
        ++ ['\x7d']

/-- The texts of array items. -/
def itemChars (spacing : Spacing) : List Json → List (List Char)
  | [] => []
  | item :: rest => chars spacing item :: itemChars spacing rest

/-- The names and written values of members. -/
def memberChars (spacing : Spacing) : List (String × Json) → List (String × List Char)
  | [] => []
  | (name, value) :: rest => (name, chars spacing value) :: memberChars spacing rest

end

/-- The one text of a value and of every reordering of its members. -/
def canonicalText (value : Json) : String := String.ofList (value.chars canonical)

/-- A value on one line of a log. -/
def lineText (value : Json) : String := String.ofList (value.chars line)

mutual

/-- A value as messages show it. -/
def literal : Json → String
  | null => "None"
  | bool b => if b then "True" else "False"
  | int n => toString n
  | float x => Decimal.text x
  | str s => Text.quoted s
  | foreign s => s
  | arr items => "[" ++ ", ".intercalate (itemLiterals items) ++ "]"
  | obj members => "\x7b" ++ ", ".intercalate (memberLiterals members) ++ "\x7d"

def itemLiterals : List Json → List String
  | [] => []
  | item :: rest => literal item :: itemLiterals rest

def memberLiterals : List (String × Json) → List String
  | [] => []
  | (name, value) :: rest => (Text.quoted name ++ ": " ++ literal value) :: memberLiterals rest

end

/-- A value put into running text: a string is its own text, anything else its literal. -/
def display : Json → String
  | str s => s
  | value => value.literal

end IssueSearch.Json
