import IssueSearch.Decimal.Range
/-!
Clocks that times to live are measured by. A clock reading can be moved forward by whole seconds
and compared with another reading; nothing else is asked of it, so the same cache runs on doubles
and on exact numbers.
-/
namespace IssueSearch

class Timeline (τ : Type) where
  /-- The moment so many seconds after another, unless the clock cannot tell it. -/
  after : τ → Int → Except Overflow τ
  /-- Whether a deadline has come at a moment; it has at the very moment itself. -/
  reached : (now deadline : τ) → Bool

/-- Seconds as doubles: sums are rounded to the nearest double, but only doubles are added. -/
instance : Timeline Float where
  after t seconds := (Decimal.nearest seconds).map (t + ·)
  reached now deadline := decide (deadline ≤ now)

/-- Whole seconds. -/
instance : Timeline Int where
  after t seconds := .ok (t + seconds)
  reached now deadline := decide (deadline ≤ now)

end IssueSearch
