/-!
Runs: lists in order by a strict comparison. One is found at the front of any list, and further
items are put into it one by one, each where halving finds its place, behind its equals.
-/
namespace IssueSearch.Ranking

variable {α : Type}

/-- Whether there is an item at a position, and it passes a test. -/
def holdsAt (test : α → Bool) (xs : List α) (i : Nat) : Bool := (xs[i]?).any test

/-- The first position from `low` on that fails, `high` if none before it does, found by halving.
An even number of positions has two in the middle; the later one is looked at, or the `early`. -/
def halve (holds : Nat → Bool) (early : Bool) : (fuel low high : Nat) → Nat
  | 0, low, _ => low
  | fuel + 1, low, high =>
      if low < high then
        let middle := low + (high - low - if early then 1 else 0) / 2
        if holds middle then halve holds early fuel (middle + 1) high
        else halve holds early fuel low middle
      else low

variable (lt : α → α → Bool)

/-- A run with one more item in its place. -/
def insert (run : List α) (x : α) : List α :=
  let place := halve (holdsAt (fun y => !lt x y) run) false run.length 0 run.length
  run.take place ++ x :: run.drop place

/-- How many items in a row go down from `last`. -/
def descent (last : α) : List α → Nat
  | [] => 0
  | y :: rest => if lt y last then descent y rest + 1 else 0

/-- How many items in a row do not go down from `last`. -/
def ascent (last : α) : List α → Nat
  | [] => 0
  | y :: rest => if lt y last then 0 else ascent y rest + 1

/-- The run at the front of a list and the items behind it. Items that go down are turned round. -/
def front : List α → List α × List α
  | x :: y :: rest =>
      if lt y x then
        let (fall, rest) := rest.splitAt (descent lt y rest)
        ((x :: y :: fall).reverse, rest)
      else
        let (rise, rest) := rest.splitAt (ascent lt y rest)
        (x :: y :: rise, rest)
  | xs => (xs, [])

/-- The run at the front, made as long as `least` by the items behind it as far as they go. -/
def nextRun (least : Nat) (xs : List α) : List α × List α :=
  let (run, rest) := front lt xs
  let (more, rest) := rest.splitAt (least - run.length)
  (more.foldl (insert lt) run, rest)

/-- Halves a length until it is below sixty-four, and adds one if a half was rounded down. -/
def shorten : (fuel length cut : Nat) → Nat
  | 0, length, cut => length + cut
  | fuel + 1, length, cut =>
      if length < 64 then length + cut
      else shorten fuel (length / 2) (if length % 2 = 1 then 1 else cut)

/-- The least length of the runs that a list is divided into: the whole of a short list, else
thirty-two to sixty-four. -/
def leastLength (length : Nat) : Nat := shorten length length 0

end IssueSearch.Ranking
