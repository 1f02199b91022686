import IssueSearch.Text.CaseTable
/-!
Lower case by the full Unicode mapping. A capital sigma at the end of a word becomes the final
sigma, and the dotted capital i becomes an i with a combining dot; every other character maps to
one character whatever stands around it.
-/
namespace IssueSearch.Text

/-- The lower case of a character by itself. -/
def lowerChar (c : Char) : Char :=
  if c.toNat < 128 then c.toLower
  else match lowerRanges.find? (·.holds c.toNat) with
    | some range => Char.ofNat (c.toNat + range.shift).toNat
    | none => c

/-- Whether the nearest character that is not ignorable exists and is cased. -/
def meetsCased (text : List Char) : Bool :=
  match text.dropWhile isCaseIgnorable with
  | [] => false
  | c :: _ => isCased c

/-- The lower case of a character between the reversed text before it and the text after it. -/
def lowerAt (before : List Char) (c : Char) (after : List Char) : List Char :=
  if c = '\u03A3' then
    if meetsCased before && !meetsCased after then ['\u03C2'] else ['\u03C3']
  else if c = '\u0130' then ['i', '\u0307']
  else [lowerChar c]

/-- Lower case of the rest of a text, given the reversed text before it. -/
def lowerChars : (before text : List Char) → List Char
  | _, [] => []
  | before, c :: rest => lowerAt before c rest ++ lowerChars (c :: before) rest

/-- A text in lower case. -/
def lower (text : String) : String := String.ofList (lowerChars [] text.toList)

end IssueSearch.Text
