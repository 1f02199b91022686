/-!
Sets of characters given by ranges of code points, and the blank characters.
-/
namespace IssueSearch.Text

/-- Whether a character lies in one of the ranges, both ends included. -/
def inRanges (ranges : List (Nat × Nat)) (c : Char) : Bool :=
  ranges.any fun range => range.1 ≤ c.toNat && c.toNat ≤ range.2

/-- The code points that count as white space: those with the property of that name and the four
information separators. -/
def blankRanges : List (Nat × Nat) := [
  (0x0009, 0x000D), (0x001C, 0x0020), (0x0085, 0x0085), (0x00A0, 0x00A0), (0x1680, 0x1680),
  (0x2000, 0x200A), (0x2028, 0x2029), (0x202F, 0x202F), (0x205F, 0x205F), (0x3000, 0x3000)]

/-- White space, on which the query grammar splits. -/
def isBlank (c : Char) : Bool := inRanges blankRanges c

/-- White space without the information separators, which number text may have around it. -/
def isSpacing (c : Char) : Bool := isBlank c && !(0x1C ≤ c.toNat && c.toNat ≤ 0x1F)

/-- Whether a text holds white space. -/
def hasBlank (text : String) : Bool := text.toList.any isBlank

/-- Whether a text is empty or white space only. -/
def allBlank (text : String) : Bool := text.toList.all isBlank

/-- A text without the spacing at its ends. -/
def trimSpacing (text : List Char) : List Char :=
  ((text.dropWhile isSpacing).reverse.dropWhile isSpacing).reverse

/-- Whether the characters of `part` occur side by side in `whole`. -/
def occursIn (part : List Char) : (whole : List Char) → Bool
  | [] => part.isEmpty
  | c :: rest => part.isPrefixOf (c :: rest) || occursIn part rest

end IssueSearch.Text
