import IssueSearch.Proofs.Monitor.Durations
import IssueSearch.Proofs.Monitor.Percentile
import Mathlib
/-!
What the statistics of a selection say about it, and when there are any. Only the average can fail:
durations without doubles are added up as integers, and those may go beyond all doubles.
-/
namespace IssueSearch.Monitor

/-! ### What statistics say -/

/-- Statistics say how many measurements there are and how large the share of successes is, and
their other figures are the durations at three places of the sorted selection. -/
structure Figures (xs : List Measurement) (s : OperationStats) : Prop where
  count_eq : s.count = xs.length
  successRate_eq : s.successRate =
    Decimal.roundTo 2 (Decimal.ofRatio (xs.filter Measurement.success).length xs.length * 100.0)
  least_eq : (sortedDurations xs)[0]? = some s.least
  p95_eq : (sortedDurations xs)[p95Index xs.length]? = some s.p95
  greatest_eq : (sortedDurations xs)[xs.length - 1]? = some s.greatest

theorem figures_of_statsOf {xs : List Measurement} {s : OperationStats} (hne : xs ≠ [])
    (hstats : statsOf xs = .ok s) : Figures xs s := by
  have hlength := length_sortedDurations xs
  have hpos : 0 < xs.length := List.length_pos_iff.2 hne
  rw [statsOf] at hstats
  cases hsorted : sortedDurations xs with
  | nil =>
      rw [hsorted] at hlength
      exact absurd hlength (Nat.ne_of_lt hpos)
  | cons least rest =>
      simp only [hsorted] at hstats
      cases htotal : Number.sum (least :: rest) with
      | error cause =>
          rw [htotal] at hstats
          cases hstats
      | ok total =>
          cases haverage : total.divNat xs.length with
          | error cause =>
              simp only [htotal, haverage, bind, Except.bind] at hstats
              cases hstats
          | ok average =>
              simp only [htotal, haverage, bind, Except.bind] at hstats
              cases hstats
              rw [hsorted] at hlength
              refine ⟨rfl, rfl, by rw [hsorted]; rfl, ?_, ?_⟩
              · have hindex : p95Index xs.length < (least :: rest).length := by
                  rw [hlength]
                  exact p95Index_lt hpos
                rw [hsorted, List.getD_eq_getElem?_getD, List.getElem?_eq_getElem hindex]
                rfl
              · rw [hsorted, ← hlength, ← List.getLast?_eq_getElem?, List.getLastD_eq_getLast?,
                  List.getLast?_cons]
                rfl

/-- What the statistics of a selection of numbers say: each figure is a duration of the selection,
no duration lies before the least or behind the greatest, the 95th percentile lies between the two,
and less than a twentieth of the durations lies above it if there are no more than `2 ^ 53`. -/
structure Describes (xs : List Measurement) (s : OperationStats) : Prop where
  count_eq : s.count = xs.length
  least_mem : ∃ x ∈ xs, x.duration = s.least
  p95_mem : ∃ x ∈ xs, x.duration = s.p95
  greatest_mem : ∃ x ∈ xs, x.duration = s.greatest
  least_le : ∀ x ∈ xs, x.duration.lt s.least = false
  le_greatest : ∀ x ∈ xs, s.greatest.lt x.duration = false
  least_le_p95 : s.p95.lt s.least = false
  p95_le_greatest : s.greatest.lt s.p95 = false
  above_p95_lt : xs.length ≤ 2 ^ 53 →
    20 * xs.countP (fun x => s.p95.lt x.duration) < xs.length

theorem Figures.describes {xs : List Measurement} {s : OperationStats} (hne : xs ≠ [])
    (hfigures : Figures xs s) (hlies : ∀ x ∈ xs, x.duration.Lies) : Describes xs s := by
  obtain ⟨hcount, -, hleast, hp95, hgreatest⟩ := hfigures
  have hpos : 0 < xs.length := List.length_pos_iff.2 hne
  have hperm := sortedDurations_perm xs
  have hlength := length_sortedDurations xs
  have hascends := sortedDurations_ascends hlies
  have hplace {x : Measurement} (hx : x ∈ xs) :
      ∃ i < xs.length, (sortedDurations xs)[i]? = some x.duration := by
    obtain ⟨i, hi, heq⟩ := List.getElem_of_mem (hperm.symm.subset (List.mem_map_of_mem hx))
    exact ⟨i, hlength ▸ hi, List.getElem?_eq_some_iff.2 ⟨hi, heq⟩⟩
  have hmem {i : Nat} {a : Number} (ha : (sortedDurations xs)[i]? = some a) :
      ∃ x ∈ xs, x.duration = a :=
    List.mem_map.1 (hperm.subset (List.mem_of_getElem? ha))
  constructor
  · exact hcount
  · exact hmem hleast
  · exact hmem hp95
  · exact hmem hgreatest
  · intro x hx
    obtain ⟨i, -, hi⟩ := hplace hx
    exact not_lt_of_place_le hascends (Nat.zero_le i) hleast hi
  · intro x hx
    obtain ⟨i, hlt, hi⟩ := hplace hx
    exact not_lt_of_place_le hascends (by omega) hi hgreatest
  · exact not_lt_of_place_le hascends (Nat.zero_le _) hleast hp95
  · have hindex := p95Index_lt hpos
    exact not_lt_of_place_le hascends (by omega) hp95 hgreatest
  · intro hle
    have habove := countP_above_le hascends hp95
    have hbehind := behind_p95Index_lt hpos hle
    rw [hlength, hperm.countP_eq, List.countP_map] at habove
    have hsame : xs.countP ((s.p95.lt ·) ∘ Measurement.duration) =
        xs.countP fun x => s.p95.lt x.duration := rfl
    rw [hsame] at habove
    omega

section Part

variable {xs ys : List Measurement} {s t : OperationStats} (hxs : Describes xs s)
  (hys : Describes ys t) (hpart : ∀ y ∈ ys, y ∈ xs) (hlies : ∀ x ∈ xs, x.duration.Lies)

include hxs hys hpart hlies

/-- A part of a selection that has a least duration of the whole has the same least duration. -/
theorem position?_least_eq {x : Measurement} (hx : x ∈ ys) (heq : x.duration = s.least) :
    t.least.position? = s.least.position? := by
  obtain ⟨y, hy, hleast⟩ := hys.least_mem
  have hover := hxs.least_le y (hpart y hy)
  have hunder := hys.least_le x hx
  rw [← heq] at hover ⊢
  rw [← hleast] at hunder ⊢
  exact Number.position?_eq_of_not_lt (hlies y (hpart y hy)) (hlies x (hpart x hx)) hover hunder

theorem position?_greatest_eq {x : Measurement} (hx : x ∈ ys) (heq : x.duration = s.greatest) :
    t.greatest.position? = s.greatest.position? := by
  obtain ⟨y, hy, hgreatest⟩ := hys.greatest_mem
  have hunder := hxs.le_greatest y (hpart y hy)
  have hover := hys.le_greatest x hx
  rw [← heq] at hunder ⊢
  rw [← hgreatest] at hover ⊢
  exact Number.position?_eq_of_not_lt (hlies y (hpart y hy)) (hlies x (hpart x hx)) hover hunder

end Part

/-! ### When there are statistics -/

/-- How far an integer is from zero; doubles do not count. -/
def size (a : Number) : Nat :=
  match a.integer? with
  | some n => n.natAbs
  | none => 0

/-- The integers of a selection are too small to add up to something beyond all doubles. -/
def Small (xs : List Measurement) : Prop :=
  (xs.map fun x => size x.duration).sum < Decimal.beyondDoubles

instance (xs : List Measurement) : Decidable (Small xs) := inferInstanceAs (Decidable (_ < _))

theorem size_of_integer? {a : Number} {n : Int} (ha : a.integer? = some n) :
    size a = n.natAbs := by
  rw [size, ha]

theorem toFloat_ok {a : Number} (hsmall : size a < Decimal.beyondDoubles) :
    ∃ x, a.toFloat = .ok x := by
  cases a with
  | flag b => exact ⟨_, rfl⟩
  | int n =>
      rw [size_of_integer? (rfl : (Number.int n).integer? = some n)] at hsmall
      rw [Number.toFloat, Decimal.nearest, if_neg (Nat.not_le.2 hsmall)]
      exact ⟨_, rfl⟩
  | float x => exact ⟨x, rfl⟩

/-- Two numbers add up to one no larger, as far as integers go. -/
theorem add_ok {a b : Number} (hsmall : size a + size b < Decimal.beyondDoubles) :
    ∃ c, a.add b = .ok c ∧ size c ≤ size a + size b := by
  obtain ⟨x, hx⟩ := toFloat_ok (a := a) (by omega)
  obtain ⟨y, hy⟩ := toFloat_ok (a := b) (by omega)
  have hfloats : (do
      let x ← a.toFloat
      let y ← b.toFloat
      return Number.float (x + y) : Except Overflow Number) = .ok (.float (x + y)) := by
    rw [hx, hy]
    rfl
  rw [Number.add]
  split
  · rename_i m n hm hn
    refine ⟨_, rfl, ?_⟩
    rw [size_of_integer? hm, size_of_integer? hn]
    exact Int.natAbs_add_le m n
  · exact ⟨_, hfloats, Nat.zero_le _⟩

theorem foldlM_add_ok (xs : List Number) {a : Number}
    (hsmall : size a + (xs.map size).sum < Decimal.beyondDoubles) :
    ∃ total, xs.foldlM Number.add a = .ok total ∧ size total < Decimal.beyondDoubles := by
  induction xs generalizing a with
  | nil => exact ⟨a, rfl, hsmall⟩
  | cons b xs ih =>
      rw [List.map_cons, List.sum_cons] at hsmall
      obtain ⟨c, hadd, hc⟩ := add_ok (a := a) (b := b) (by omega)
      obtain ⟨total, htotal, hsize⟩ := ih (a := c) (by omega)
      refine ⟨total, ?_, hsize⟩
      rw [List.foldlM_cons, hadd]
      exact htotal

theorem divNat_ok {a : Number} (hsmall : size a < Decimal.beyondDoubles) {n : Nat} (hpos : 0 < n) :
    ∃ x, a.divNat n = .ok x := by
  have hquotient {k : Int} (hk : k.natAbs < Decimal.beyondDoubles) :
      ∃ x, Decimal.nearestQuotient k n = .ok x := by
    have hbeyond : ¬ Decimal.beyondDoubles * n ≤ k.natAbs :=
      Nat.not_le.2 (Nat.lt_of_lt_of_le hk (Nat.le_mul_of_pos_right _ hpos))
    rw [Decimal.nearestQuotient, if_neg hbeyond]
    exact ⟨_, rfl⟩
  cases a with
  | flag b =>
      rw [size_of_integer? (rfl : (Number.flag b).integer? = some (if b then 1 else 0))] at hsmall
      exact hquotient hsmall
  | int k =>
      rw [size_of_integer? (rfl : (Number.int k).integer? = some k)] at hsmall
      exact hquotient hsmall
  | float x => exact ⟨_, rfl⟩

/-- A selection of doubles and small integers has statistics. -/
theorem statsOf_ok {xs : List Measurement} (hsmall : Small xs) : ∃ s, statsOf xs = .ok s := by
  have hsum : ((sortedDurations xs).map size).sum = (xs.map fun x => size x.duration).sum := by
    rw [((sortedDurations_perm xs).map size).sum_nat, List.map_map]
    rfl
  have hlength := length_sortedDurations xs
  have hstart : size (.int 0) + ((sortedDurations xs).map size).sum < Decimal.beyondDoubles := by
    rw [hsum, size_of_integer? rfl, Int.natAbs_zero, Nat.zero_add]
    exact hsmall
  obtain ⟨total, htotal, hsize⟩ := foldlM_add_ok _ hstart
  rw [statsOf]
  cases hsorted : sortedDurations xs with
  | nil => exact ⟨_, rfl⟩
  | cons least rest =>
      rw [hsorted] at htotal hlength
      obtain ⟨average, haverage⟩ := divNat_ok hsize (n := xs.length) (by
        rw [← hlength]
        exact Nat.succ_pos _)
      simp only [Number.sum, htotal, haverage, bind, Except.bind]
      exact ⟨_, rfl⟩

/-- Without an average there are no statistics. -/
theorem statsOf_eq_error {xs : List Measurement} {total : Number} {cause : Overflow} (hne : xs ≠ [])
    (htotal : Number.sum (sortedDurations xs) = .ok total)
    (hdiv : total.divNat xs.length = .error cause) : statsOf xs = .error cause := by
  have hlength := length_sortedDurations xs
  rw [statsOf]
  cases hsorted : sortedDurations xs with
  | nil =>
      rw [hsorted] at hlength
      exact absurd (List.length_eq_zero_iff.1 hlength.symm) hne
  | cons least rest =>
      rw [hsorted] at htotal
      simp only [htotal, hdiv, bind, Except.bind]

end IssueSearch.Monitor
