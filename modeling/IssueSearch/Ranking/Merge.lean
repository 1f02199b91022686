import IssueSearch.Ranking.Run
/-!
Two neighbouring runs made one. Items are taken from either run, one by one; when one run has won so
often that it outlasts the patience with this, the number of items to take is found by striding
ahead and halving. Patience falls as long as strides pay and rises when they stop to.

The shorter run is put aside. If it is the first one, the runs are met from their beginnings, else
backwards from their ends; `Merging` speaks of both ways at once.
-/
namespace IssueSearch.Ranking

variable {α : Type} (lt : α → α → Bool)

/-- The last position that holds and the first that fails, of the positions `next`, twice as far
and one more, and so on. -/
def stride (holds : Nat → Bool) : (fuel last next : Nat) → Nat × Nat
  | 0, last, next => (last, next)
  | fuel + 1, last, next =>
      if holds next then stride holds fuel next (2 * next + 1) else (last, next)

/-- How many items at the front pass a test, if those that pass come first. -/
def gallop (test : α → Bool) (early : Bool) (xs : List α) : Nat :=
  let holds := holdsAt test xs
  if holds 0 then
    let (last, next) := stride holds xs.length 0 1
    halve holds early xs.length (last + 1) (min next xs.length)
  else 0

/-- Two runs on their way into one. -/
structure Merging (α : Type) where
  /-- Whether both runs are met from their ends. -/
  backward : Bool
  /-- What is left of the first run, in the order in which it is met. -/
  first : List α
  /-- What is left of the second run. -/
  second : List α
  /-- The items taken, the latest first. -/
  taken : List α := []

namespace Merging

variable (m : Merging α)

/-- Takes items of the first run. -/
def takeFirst (count : Nat) : Merging α :=
  { m with
    first := m.first.drop count
    taken := (m.first.take count).reverse ++ m.taken }

/-- Takes items of the second run. -/
def takeSecond (count : Nat) : Merging α :=
  { m with
    second := m.second.drop count
    taken := (m.second.take count).reverse ++ m.taken }

/-- Whether a list has no second item. -/
def isLow : List α → Bool
  | _ :: _ :: _ => false
  | _ => true

/-- Whether nothing is left to compare: the run put aside is down to one item, which then comes
last, or the other run is used up. -/
def isOver : Bool :=
  if m.backward then m.first.isEmpty || isLow m.second else m.second.isEmpty || isLow m.first

/-- The merged run, once nothing is left to compare. -/
def result : List α :=
  if m.backward then (m.first ++ m.second).reverse ++ m.taken
  else m.taken.reverse ++ m.second ++ m.first

/-- Whether an item of the first run is met before one of the second. -/
def goesFirst (x y : α) : Bool := lt y x == m.backward

/-- How many items of the first run are met before the second's next one. -/
def lead : Nat :=
  match m.second with
  | [] => 0
  | y :: _ => gallop (fun x => m.goesFirst lt x y) m.backward m.first

/-- How many items of the second run are met before the first's next one. -/
def trail : Nat :=
  match m.first with
  | [] => 0
  | x :: _ => gallop (fun y => !m.goesFirst lt x y) m.backward m.second

/-- Takes items one by one until one run has won as often in a row as patience lasts. `fuel` may be
the number of items left, here and below. -/
def pick (patience : Nat) : (fuel wonFirst wonSecond : Nat) → Merging α → Merging α
  | 0, _, _, m => m
  | fuel + 1, wonFirst, wonSecond, m =>
      if m.isOver || patience ≤ wonFirst || patience ≤ wonSecond then m
      else match m.first, m.second with
        | x :: _, y :: _ =>
            if m.goesFirst lt x y then pick patience fuel (wonFirst + 1) 0 (m.takeFirst 1)
            else pick patience fuel 0 (wonSecond + 1) (m.takeSecond 1)
        | _, _ => m

/-- Strides of fewer items than this do not pay. -/
def worthwhile : Nat := 7

/-- Takes items by strides through either run in turn, as long as that pays. -/
def leap : (fuel patience : Nat) → Merging α → Merging α × Nat
  | 0, patience, m => (m, patience)
  | fuel + 1, patience, m =>
      let patience := if 1 < patience then patience - 1 else patience
      let lead := m.lead lt
      let m := m.takeFirst lead
      if m.isOver then (m, patience)
      else
        let m := m.takeSecond 1
        if m.isOver then (m, patience)
        else
          let trail := m.trail lt
          let m := m.takeSecond trail
          if m.isOver then (m, patience)
          else
            let m := m.takeFirst 1
            if m.isOver then (m, patience)
            else if worthwhile ≤ lead || worthwhile ≤ trail then leap fuel patience m
            else (m, patience + 1)

/-- How many items are left. -/
def size : Nat := m.first.length + m.second.length

/-- Takes items until nothing is left to compare. -/
def finish : (fuel patience : Nat) → Merging α → Merging α × Nat
  | 0, patience, m => (m, patience)
  | fuel + 1, patience, m =>
      let m := pick lt patience m.size 0 0 m
      if m.isOver then (m, patience)
      else
        let (m, patience) := leap lt m.size (patience + 1) m
        if m.isOver then (m, patience) else finish fuel patience m

end Merging

/-- Merges two runs of which the first ends with an item that goes behind the second's first, and
the second ends with one that goes before the first's last. -/
def interleave (patience : Nat) (xs ys : List α) : List α × Nat :=
  let m : Merging α :=
    if xs.length ≤ ys.length then
      Merging.takeSecond { backward := false, first := xs, second := ys } 1
    else Merging.takeFirst { backward := true, first := xs.reverse, second := ys.reverse } 1
  let (m, patience) := m.finish lt m.size patience
  (m.result, patience)

/-- Merges two runs. Items of the first that go before all of the second stay where they are, and
so do items of the second that go behind all of the first. -/
def merge (patience : Nat) (xs ys : List α) : List α × Nat :=
  match ys with
  | [] => (xs, patience)
  | y :: _ =>
      let (before, xs) := xs.splitAt (gallop (fun x => !lt y x) false xs)
      match xs.getLast? with
      | none => (before ++ ys, patience)
      | some last =>
          let behind := gallop (fun y => !lt y last) true ys.reverse
          let (ys, after) := ys.splitAt (ys.length - behind)
          if ys.isEmpty then (before ++ xs ++ after, patience)
          else
            let (merged, patience) := interleave lt patience xs ys
            (before ++ merged ++ after, patience)

end IssueSearch.Ranking
