/-!
How alike two texts are, and the closest of several candidates.

The measure cuts both texts at their longest common block, the earliest one in the first text and
then in the second, and goes on to the left and to the right of it. The likeness is twice the
number of characters in blocks over the characters of both texts, a fraction that is kept exact.
In a second text of two hundred characters or more, a character that makes up more than a
hundredth of it starts no block, but a block still grows over it.
-/
namespace IssueSearch.Text

/-- A common block: where it starts in either text and how long it is. -/
structure Block where
  left : Nat
  right : Nat
  size : Nat

/-- For the common blocks that end at a character `c` of the first text: their sizes per position
of the second text, from the sizes `before` one position earlier. -/
def blockSizes (starts : Char → Bool) (c : Char) : (before : List Nat) → (second : List Char) →
    List Nat
  | size :: before, d :: second =>
      (if d = c ∧ starts d then size + 1 else 0) :: blockSizes starts c before second
  | _, _ => []

/-- The better of the best block so far and the blocks that end at position `i` of the first text
and, in turn, at positions `j, j + 1, …` of the second. Only a strictly longer block is better. -/
def bestOfRow (i : Nat) : (j : Nat) → (sizes : List Nat) → Block → Block
  | _, [], best => best
  | j, size :: sizes, best =>
      bestOfRow i (j + 1) sizes
        (if best.size < size then ⟨i + 1 - size, j + 1 - size, size⟩ else best)

/-- The longest common block over the rest of the first text, from position `i` on. -/
def longestFrom (starts : Char → Bool) (second : List Char) :
    (i : Nat) → (first : List Char) → (before : List Nat) → Block → Block
  | _, [], _, best => best
  | i, c :: first, before, best =>
      let sizes := blockSizes starts c before second
      longestFrom starts second (i + 1) first (0 :: sizes) (bestOfRow i 0 sizes best)

/-- How many characters two texts share at their beginning. -/
def commonLead : List Char → List Char → Nat
  | c :: first, d :: second => if c = d then commonLead first second + 1 else 0
  | _, _ => 0

/-- A block grown in both directions as far as the texts agree. -/
def Block.grow (first second : List Char) (b : Block) : Block :=
  let back := commonLead (first.take b.left).reverse (second.take b.right).reverse
  let ahead := commonLead (first.drop (b.left + b.size)) (second.drop (b.right + b.size))
  ⟨b.left - back, b.right - back, back + b.size + ahead⟩

/-- The longest common block of two texts. -/
def longestBlock (starts : Char → Bool) (first second : List Char) : Block :=
  (longestFrom starts second 0 first (List.replicate (second.length + 1) 0) ⟨0, 0, 0⟩).grow
    first second

/-- How many characters lie in common blocks; each block leaves a shorter first text on either
side, so `fuel` may be the length of the first text. -/
def matched (starts : Char → Bool) : (fuel : Nat) → (first second : List Char) → Nat
  | 0, _, _ => 0
  | fuel + 1, first, second =>
      let block := longestBlock starts first second
      if block.size = 0 then 0
      else
        matched starts fuel (first.take block.left) (second.take block.right) + block.size +
          matched starts fuel (first.drop (block.left + block.size))
            (second.drop (block.right + block.size))

/-- The characters of the second text that start no block. -/
def popular (second : List Char) : List Char :=
  if second.length < 200 then []
  else second.eraseDups.filter fun c => second.length / 100 + 1 < second.count c

/-- A likeness `2 · shared / total`; two empty texts are alike. -/
structure Likeness where
  shared : Nat
  total : Nat

def Likeness.of (first second : String) : Likeness :=
  let a := first.toList
  let b := second.toList
  let excluded := popular b
  if a.isEmpty && b.isEmpty then ⟨1, 2⟩
  else ⟨matched (fun c => !excluded.contains c) a.length a b, a.length + b.length⟩

/-- The greatest likeness that texts of such lengths can have: all of the shorter one is shared. -/
def Likeness.bound (first second : String) : Likeness :=
  if first.isEmpty && second.isEmpty then ⟨1, 2⟩
  else ⟨min first.length second.length, first.length + second.length⟩

/-- Comparison of the fractions. -/
def Likeness.le (x y : Likeness) : Bool := x.shared * y.total ≤ y.shared * x.total

/-- At least three fifths. -/
def Likeness.isClose (x : Likeness) : Bool := 3 * x.total ≤ 10 * x.shared

/-- Whether the first scored candidate goes before the second: the more alike does, and of two
equally alike the later in the order of code points. -/
def goesFirst (x y : Likeness × String) : Bool :=
  if x.1.le y.1 && y.1.le x.1 then decide (y.2 ≤ x.2) else y.1.le x.1

/-- Up to three candidates that are close to a text, the closest first. Those that cannot be close
by their length are not compared. -/
def closeMatches (text : String) (candidates : List String) : List String :=
  let within := candidates.filter fun candidate => (Likeness.bound candidate text).isClose
  let scored := within.map fun candidate => (Likeness.of candidate text, candidate)
  (((scored.filter (·.1.isClose)).mergeSort goesFirst).take 3).map Prod.snd

end IssueSearch.Text
