import IssueSearch.Ranking.Merge
/-!
Lists put in order by a strict comparison. A list is divided into runs from the front, and runs are
merged with their neighbours in an order that keeps the lengths merged alike: between two runs lies
a boundary, whose depth is the number of halvings of the whole list that it takes to part the
middles of the two, and the runs at deep boundaries are merged before those at shallow ones.

The outcome is the ordered list with equals in their given order, if the comparison is a strict
weak order. Items that compare with nothing stay wherever the runs and merges put them.
-/
namespace IssueSearch.Ranking

variable {α : Type}

/-- A run that waits to be merged. -/
structure Pending (α : Type) where
  /-- The position of its first item in the whole list. -/
  start : Nat
  items : List α
  /-- The depth of the boundary behind it. -/
  depth : Nat := 0

/-- Counts halvings of a list of `length` until they part two points, both given doubled. -/
def partingDepth (length : Nat) : (fuel low high : Nat) → Nat
  | 0, _, _ => 0
  | fuel + 1, low, high =>
      if length ≤ low then
        partingDepth length fuel (2 * (low - length)) (2 * (high - length)) + 1
      else if length ≤ high then 1
      else partingDepth length fuel (2 * low) (2 * high) + 1

/-- The depth of the boundary between two neighbouring runs: one that begins at `start`, and the
lengths of both. -/
def boundaryDepth (length start first second : Nat) : Nat :=
  let middle := 2 * start + first
  partingDepth length (length + 2) middle (middle + first + second)

variable (lt : α → α → Bool)

/-- Notes the depth of the boundary behind a run, once the run is merged with those before it that
lie at deeper boundaries; the nearest of them comes first. -/
def settle (depth : Nat) (last : Pending α) :
    (earlier : List (Pending α)) → (patience : Nat) → List (Pending α) × Nat
  | [], patience => ([{ last with depth }], patience)
  | previous :: earlier, patience =>
      if depth < previous.depth then
        let (items, patience) := merge lt patience previous.items last.items
        settle depth { start := previous.start, items } earlier patience
      else ({ last with depth } :: previous :: earlier, patience)

/-- Merges what is left, the last run first. A run goes with the one before it, unless the one
before that is even shorter than the run. `fuel` may be the number of runs. -/
def mergeAll : (fuel patience : Nat) → List (Pending α) → List α
  | fuel + 1, patience, last :: previous :: first :: earlier =>
      if first.items.length < last.items.length then
        let (items, patience) := merge lt patience first.items previous.items
        mergeAll fuel patience (last :: { start := first.start, items } :: earlier)
      else
        let (items, patience) := merge lt patience previous.items last.items
        mergeAll fuel patience ({ start := previous.start, items } :: first :: earlier)
  | _ + 1, patience, [last, previous] => (merge lt patience previous.items last.items).1
  | _, _, pending => pending.reverse.flatMap Pending.items

/-- Divides the items from a position on into runs and merges on the way. `fuel` may be the number
of items. -/
def divide (length least : Nat) : (fuel start patience : Nat) → (pending : List (Pending α)) →
    List α → List α
  | fuel + 1, start, patience, pending, x :: xs =>
      let (items, rest) := nextRun lt least (x :: xs)
      let (pending, patience) := match pending with
        | [] => ([], patience)
        | last :: earlier =>
            let depth := boundaryDepth length last.start last.items.length items.length
            settle lt depth last earlier patience
      divide length least fuel (start + items.length) patience ({ start, items } :: pending) rest
  | _, _, patience, pending, rest => mergeAll lt pending.length patience pending ++ rest

/-- The items in ascending order. -/
def sorted (xs : List α) : List α :=
  divide lt xs.length (leastLength xs.length) xs.length 0 Merging.worthwhile [] xs

end IssueSearch.Ranking
