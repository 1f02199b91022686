import IssueSearch.Monitor.Stats
import IssueSearch.Proofs.Ranking.Sort
import Mathlib.Data.List.Basic
/-!
Durations in ascending order. Numbers that lie somewhere on the line are ordered by where they lie,
so that of the sorted durations the first is the least and the last the greatest, and what lies
above the 95th percentile is less than a twentieth of them.
-/
namespace IssueSearch

namespace Position

theorem lt_asymm {p q : Position} (hlt : p.lt q = true) : q.lt p = false := by
  cases p <;> cases q <;> simp_all [lt]
  omega

theorem not_lt_trans {p q r : Position} (hpq : q.lt p = false) (hqr : r.lt q = false) :
    r.lt p = false := by
  cases p <;> cases q <;> cases r <;> simp_all [lt]
  omega

/-- Of two points neither of which lies before the other there is only one. -/
theorem eq_of_not_lt {p q : Position} (hpq : p.lt q = false) (hqp : q.lt p = false) : p = q := by
  cases p <;> cases q <;> simp_all [lt]
  omega

theorem before_asymm {p q : Option Position} (hlt : before p q = true) : before q p = false := by
  cases p <;> cases q <;> simp_all [before, lt_asymm]

theorem not_before_trans {p q r : Option Position} (hq : q.isSome = true)
    (hpq : before q p = false) (hqr : before r q = false) : before r p = false := by
  cases p <;> cases q <;> cases r <;> simp_all [before]
  exact not_lt_trans hpq hqr

end Position

namespace Number

/-- A number lies somewhere on the line: it is not a double that is not a number. -/
def Lies (a : Number) : Prop := a.position?.isSome = true

theorem lt_asymm {a b : Number} (hlt : a.lt b = true) : b.lt a = false :=
  Position.before_asymm hlt

theorem not_lt_trans {a b c : Number} (hb : b.Lies) (hab : b.lt a = false) (hbc : c.lt b = false) :
    c.lt a = false :=
  Position.not_before_trans hb hab hbc

/-- Numbers that lie somewhere, neither of them before the other, lie at one point. -/
theorem position?_eq_of_not_lt {a b : Number} (ha : a.Lies) (hb : b.Lies) (hab : a.lt b = false)
    (hba : b.lt a = false) : a.position? = b.position? := by
  obtain ⟨p, hp⟩ := Option.isSome_iff_exists.1 ha
  obtain ⟨q, hq⟩ := Option.isSome_iff_exists.1 hb
  rw [lt, hp, hq] at hab hba
  rw [hp, hq]
  exact congrArg some (Position.eq_of_not_lt hab hba)

theorem lt_irrefl (a : Number) : a.lt a = false := by
  cases hlt : a.lt a with
  | true => exact hlt.symm.trans (lt_asymm hlt)
  | false => rfl

end Number

namespace Monitor

open Ranking (Orders Run)

/-- Comparing by where numbers lie is a strict weak order of those that lie somewhere. -/
theorem orders_placed : Orders
    (fun a b : Option Position × Number => Position.before a.1 b.1)
    (fun a => a.1.isSome = true) where
  asymm _ _ hlt := Position.before_asymm hlt
  trans _ hb _ hab hbc := Position.not_before_trans hb hab hbc

theorem sortedDurations_perm (xs : List Measurement) :
    (sortedDurations xs).Perm (xs.map Measurement.duration) := by
  refine ((Ranking.sorted_perm _ _).map Prod.snd).trans (.of_eq ?_)
  rw [List.map_map]
  rfl

theorem length_sortedDurations (xs : List Measurement) :
    (sortedDurations xs).length = xs.length := by
  rw [(sortedDurations_perm xs).length_eq, List.length_map]

/-- Durations that lie somewhere are sorted in ascending order. -/
theorem sortedDurations_ascends {xs : List Measurement} (hlies : ∀ x ∈ xs, x.duration.Lies) :
    (sortedDurations xs).Pairwise fun a b => b.lt a = false := by
  have hplaced : ∀ a ∈ xs.map fun x => (x.duration.position?, x.duration), a.1.isSome = true := by
    intro a ha
    obtain ⟨x, hx, rfl⟩ := List.mem_map.1 ha
    exact hlies x hx
  refine List.pairwise_map.2 ((Ranking.sorted_run orders_placed hplaced).ascends.imp_of_mem ?_)
  have hplace : ∀ a ∈ Ranking.sorted (fun a b => Position.before a.1 b.1)
      (xs.map fun x => (x.duration.position?, x.duration)), a.1 = a.2.position? := by
    intro a ha
    obtain ⟨x, -, rfl⟩ := List.mem_map.1 ((Ranking.sorted_perm _ _).subset ha)
    rfl
  intro a b ha hb hle
  rw [Number.lt, ← hplace a ha, ← hplace b hb]
  exact hle

/-! ### Places in a sorted list -/

section Sorted

variable {sorted : List Number} (hascends : sorted.Pairwise fun a b => b.lt a = false)

include hascends

/-- An item that stands no later than another does not lie behind it. -/
theorem not_lt_of_place_le {i j : Nat} {a b : Number} (hle : i ≤ j) (ha : sorted[i]? = some a)
    (hb : sorted[j]? = some b) : b.lt a = false := by
  obtain ⟨hi, rfl⟩ := List.getElem?_eq_some_iff.1 ha
  obtain ⟨hj, rfl⟩ := List.getElem?_eq_some_iff.1 hb
  rcases Nat.lt_or_eq_of_le hle with hlt | rfl
  · exact List.pairwise_iff_getElem.1 hascends i j hi hj hlt
  · exact Number.lt_irrefl _

/-- What lies above an item stands behind it. -/
theorem countP_above_le {i : Nat} {a : Number} (ha : sorted[i]? = some a) :
    sorted.countP (a.lt ·) ≤ sorted.length - (i + 1) := by
  have hfront : (sorted.take (i + 1)).countP (a.lt ·) = 0 := by
    refine List.countP_eq_zero.2 fun b hb => ?_
    obtain ⟨j, hj, rfl⟩ := List.getElem_of_mem hb
    rw [List.length_take, Nat.lt_min] at hj
    rw [List.getElem_take, Bool.not_eq_true]
    exact not_lt_of_place_le hascends (Nat.le_of_lt_succ hj.1) (List.getElem?_eq_getElem hj.2) ha
  have hback := List.countP_le_length (p := (a.lt ·)) (l := sorted.drop (i + 1))
  rw [List.length_drop] at hback
  rw [← List.take_append_drop (i + 1) sorted, List.countP_append, hfront, Nat.zero_add,
    List.take_append_drop]
  exact hback

end Sorted

end Monitor
end IssueSearch
