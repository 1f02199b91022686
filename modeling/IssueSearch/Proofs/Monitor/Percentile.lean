import IssueSearch.Monitor.Stats
import IssueSearch.Proofs.Decimal.Product
/-!
The place of the 95th percentile is the whole part of a product of doubles. The double next to 0.95
lies below it, so the product falls short of the exact one; rounding makes up for that whenever the
exact one is whole, and up to more measurements than any memory holds it does no more than that.
-/
namespace IssueSearch.Monitor

open Decimal

/-- The double next to 0.95 is two fifths of its last digit too small. -/
theorem normal_share : Normal 0.95 8556839292003942 (-(53 : Nat)) :=
  ⟨by decide, by decide, by decide, by decide, by decide, rfl⟩

/-- Nineteen twentieths of a double, to within a digit: its significand is doubled if the product
would be a digit short. -/
theorem exists_share {x : Float} {m : Nat} {e : Int} (hx : Normal x m e) (hlow : -1000 ≤ e)
    (hhigh : e ≤ 900) :
    ∃ more r : Nat, more ≤ 1 ∧ 2 ^ 105 ≤ 8556839292003942 * (m * 2 ^ more) ∧
      19 * (m * 2 ^ more) < 20 * (r + 1) ∧ 20 * r ≤ 19 * (m * 2 ^ more) + 6 ∧
      Normal (x * 0.95) r (e - more) := by
  have hge := hx.ge
  have hlt := hx.lt
  rcases Nat.lt_or_ge (m * 8556839292003942) (2 ^ 105) with hshort | hlong
  · obtain ⟨r, hnear, hnear', hnormal | ⟨half, hhalf, hcarried⟩⟩ :=
      hx.mul normal_share 52 (by omega) hshort (by omega) (by omega)
    · have hexponent : e + -(53 : Nat) + (52 : Nat) = e - (1 : Nat) := by omega
      rw [hexponent] at hnormal
      exact ⟨1, r, Nat.le_refl _, by omega, by omega, by omega, hnormal⟩
    · have hge' := hcarried.ge
      omega
  · obtain ⟨r, hnear, hnear', hnormal | ⟨half, hhalf, hcarried⟩⟩ :=
      hx.mul normal_share 53 hlong (by omega) (by omega) (by omega)
    · have hexponent : e + -(53 : Nat) + (53 : Nat) = e - (0 : Nat) := by omega
      rw [hexponent] at hnormal
      exact ⟨0, r, Nat.zero_le _, by omega, by omega, by omega, hnormal⟩
    · have hge' := hcarried.ge
      omega

/-- The place is nineteen twentieths of a count that is a double, to within a digit. -/
theorem exists_p95Index {count : Nat} (hpos : 0 < count) (hlt : count < 2 ^ 53) :
    ∃ shift r : Nat, p95Index count = r / 2 ^ shift ∧
      2 ^ 105 ≤ 8556839292003942 * (count * 2 ^ shift) ∧
      19 * (count * 2 ^ shift) < 20 * (r + 1) ∧ 20 * r ≤ 19 * (count * 2 ^ shift) + 6 := by
  obtain ⟨shift, hshift, hge, hlt⟩ := exists_shift hpos hlt
  obtain ⟨more, r, hmore, hlong, hnear, hnear', hnormal⟩ :=
    exists_share (normal_ofInt hge hlt) (by omega) (by omega)
  have hexponent : -(shift : Int) - (more : Nat) = -((shift + more : Nat) : Int) := by omega
  rw [hexponent] at hnormal
  rw [Nat.mul_assoc, ← Nat.pow_add] at hlong hnear hnear'
  exact ⟨shift + more, r, hnormal.toUInt64, hlong, hnear, hnear'⟩

/-- The exact place is not missed from below. -/
theorem le_p95Index {count : Nat} (hle : count ≤ 2 ^ 53) : 19 * count / 20 ≤ p95Index count := by
  rcases Nat.eq_zero_or_pos count with rfl | hpos
  · exact Nat.zero_le _
  rcases Nat.lt_or_eq_of_le hle with hlt | rfl
  · obtain ⟨shift, r, hindex, -, hnear, -⟩ := exists_p95Index hpos hlt
    have hexact : 20 * (19 * count / 20 * 2 ^ shift) ≤ 19 * (count * 2 ^ shift) := by
      rw [← Nat.mul_assoc, ← Nat.mul_assoc]
      exact Nat.mul_le_mul_right _ (Nat.mul_div_le _ _)
    rw [hindex, Nat.le_div_iff_mul_le (Nat.two_pow_pos shift)]
    omega
  · decide +kernel

/-- Up to the least count of which it is not, the place is the exact one. -/
theorem p95Index_eq {count : Nat} (hlt : count < 1185157796676461) :
    p95Index count = 19 * count / 20 := by
  rcases Nat.eq_zero_or_pos count with rfl | hpos
  · decide +kernel
  obtain ⟨shift, r, hindex, hlong, -, hnear⟩ := exists_p95Index hpos (by omega)
  refine Nat.le_antisymm ?_ (le_p95Index (by omega))
  have hdivision : 19 * (count * 2 ^ shift) =
      20 * (19 * count / 20 * 2 ^ shift) + 19 * count % 20 * 2 ^ shift := by
    rw [← Nat.mul_assoc, ← Nat.mul_assoc, ← Nat.add_mul, Nat.div_add_mod]
  -- what the division leaves and what rounding may add do not come to another place
  have hrest : 19 * count % 20 * 2 ^ shift + 6 < 20 * 2 ^ shift := by
    rcases Nat.lt_or_ge shift 3 with hless | hmore
    · obtain rfl : shift = 2 := by interval_cases shift <;> omega
      omega
    · have height : 2 ^ 3 ≤ 2 ^ shift := Nat.pow_le_pow_right (by decide) hmore
      have hle : 19 * count % 20 * 2 ^ shift ≤ 19 * 2 ^ shift :=
        Nat.mul_le_mul_right _ (Nat.le_of_lt_succ (Nat.mod_lt _ (by decide)))
      omega
  rw [hindex]
  refine Nat.le_of_lt_succ ((Nat.div_lt_iff_lt_mul (Nat.two_pow_pos shift)).2 ?_)
  rw [Nat.succ_mul]
  omega

/-- A count that may be rounded itself is not reached either. -/
theorem p95Index_lt_of_long {count : Nat} (hge : 2 ^ 53 ≤ count) (hlt : count < 2 ^ 64) :
    p95Index count < count := by
  obtain ⟨m, e, he, hbound, hnormal, hnear⟩ := exists_normal_ofInt hge hlt
  obtain ⟨more, r, hmore, -, -, hnear', hshare⟩ := exists_share hnormal (by omega) (by omega)
  obtain ⟨less, rfl⟩ : ∃ less, e = less + more := ⟨e - more, by omega⟩
  have hexponent : ((less + more : Nat) : Int) - (more : Nat) = (less : Nat) := by omega
  rw [hexponent] at hshare
  have hle : p95Index count ≤ r * 2 ^ less := hshare.toUInt64_le
  -- all is told in terms of the count as a double and of its last digit
  have hproduct : m * 2 ^ more * 2 ^ less = m * 2 ^ (less + more) := by
    rw [Nat.mul_assoc, ← Nat.pow_add, Nat.add_comm]
  have hscaled := Nat.mul_le_mul_right (2 ^ less) hnear'
  rw [Nat.add_mul, Nat.mul_assoc, Nat.mul_assoc, hproduct] at hscaled
  have hpower : 2 ^ less ≤ 2 ^ (less + more) := Nat.pow_le_pow_right (by decide) (by omega)
  have hdigits := Nat.mul_le_mul_right (2 ^ (less + more)) hnormal.ge
  omega

/-- The place is one of those that there are. -/
theorem p95Index_lt {count : Nat} (hpos : 0 < count) : p95Index count < count := by
  rcases Nat.lt_or_ge count (2 ^ 53) with hshort | hlong
  · obtain ⟨shift, r, hindex, hlong, -, hnear⟩ := exists_p95Index hpos hshort
    rw [hindex, Nat.div_lt_iff_lt_mul (Nat.two_pow_pos shift)]
    omega
  rcases Nat.lt_or_ge count (2 ^ 64) with hword | hbeyond
  · exact p95Index_lt_of_long hlong hword
  · exact Nat.lt_of_lt_of_le (UInt64.toNat_lt _) hbeyond

/-- Less than a twentieth of the places is behind that of the 95th percentile. -/
theorem behind_p95Index_lt {count : Nat} (hpos : 0 < count) (hle : count ≤ 2 ^ 53) :
    20 * (count - (p95Index count + 1)) < count := by
  have hexact := le_p95Index hle
  omega

end IssueSearch.Monitor
