import IssueSearch.Proofs.Cache.Entries
import Mathlib.Data.Rat.Cast.Order
/-!
Clocks that add seconds without rounding. On such a clock every entry has a deadline and can always
be told expired or not, so no lookup and no sweep fails.
-/
namespace IssueSearch

/-- A clock whose readings are exact numbers. -/
class ExactTimeline (τ : Type) [LinearOrder τ] extends Timeline τ where
  plus : τ → Int → τ
  after_eq (t : τ) (seconds : Int) : after t seconds = .ok (plus t seconds)
  reached_iff (now deadline : τ) : reached now deadline = true ↔ deadline ≤ now

instance : ExactTimeline Int where
  plus t seconds := t + seconds
  after_eq _ _ := rfl
  reached_iff _ _ := decide_eq_true_iff

/-- Rational seconds. -/
instance : ExactTimeline ℚ where
  after t seconds := .ok (t + seconds)
  reached now deadline := decide (deadline ≤ now)
  plus t seconds := t + seconds
  after_eq _ _ := rfl
  reached_iff _ _ := decide_eq_true_iff

namespace Cache

variable {τ α : Type} [LinearOrder τ] [ExactTimeline τ]

/-- The moment at which an entry expires. -/
def Entry.deadline (e : Entry τ α) : τ := ExactTimeline.plus e.createdAt e.ttl

theorem Entry.isExpired_eq (e : Entry τ α) (now : τ) :
    e.isExpired now = .ok (decide (e.deadline ≤ now)) := by
  rw [isExpired, expiresAt, ExactTimeline.after_eq]
  refine congrArg Except.ok ?_
  rw [Bool.eq_iff_iff, decide_eq_true_iff]
  exact ExactTimeline.reached_iff now e.deadline

theorem unexpired_eq (now : τ) (entries : List (Entry τ α)) :
    unexpired now entries = .ok (entries.filter fun e => decide (now < e.deadline)) := by
  induction entries with
  | nil => rfl
  | cons e rest ih =>
      rw [unexpired, Entry.isExpired_eq, ih]
      by_cases hexpired : e.deadline ≤ now
      · have hlate : ¬ now < e.deadline := not_lt.2 hexpired
        simp only [hexpired, decide_true, bind, Except.bind, pure, Except.pure, if_true]
        rw [List.filter_cons_of_neg (by simpa using hexpired)]
      · have hearly : now < e.deadline := not_le.1 hexpired
        simp only [hexpired, decide_false, bind, Except.bind, pure, Except.pure]
        rw [List.filter_cons_of_pos (by simpa using hearly)]
        rfl

theorem live_ok (c : Cache τ α) (now : τ) (key : String) :
    ∃ found left, c.live now key = .ok (found, left) ∧ Looks c now key found left := by
  rcases hlive : c.live now key with cause | ⟨found, left⟩
  · rw [live] at hlive
    split at hlive
    · cases hlive
    · rw [Entry.isExpired_eq] at hlive
      cases hlive
  · exact ⟨found, left, rfl, live_looks hlive⟩

/-- A lookup at an exact moment. -/
theorem live_eq (c : Cache τ α) (now : τ) (key : String) : ∃ left, c.live now key =
    .ok ((c.stored? key).filter fun e => decide (now < e.deadline), left) := by
  obtain ⟨found, left, hlive, hlooks⟩ := c.live_ok now key
  refine ⟨left, ?_⟩
  rw [hlive]
  cases hlooks with
  | absent missing => rw [missing, Option.filter_none]
  | expired stored expired =>
      rw [Entry.isExpired_eq, Except.ok.injEq, decide_eq_true_iff] at expired
      rw [stored, Option.filter_some, if_neg (by simpa using expired)]
  | live stored unexpired =>
      rw [Entry.isExpired_eq, Except.ok.injEq, decide_eq_false_iff_not, not_le] at unexpired
      rw [stored, Option.filter_some, if_pos (by simpa using unexpired)]

end Cache
end IssueSearch
