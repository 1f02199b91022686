import IssueSearch.Decimal.Rounding
import Mathlib
/-!
Products of doubles. A positive normal double is a significand of fifty-three binary digits times a
power of two; the product of two of them is the nearest such number to the exact one.
-/
namespace IssueSearch.Decimal

open Float.Model Float.Model.UnpackedFloat

/-! ### Rounding -/

/-- What is left of a natural after its last digits, a power of two in all, were cut off: the two
bits behind tell on which side of the middle the part cut off lies. -/
def Cut (power m : Nat) (em : ExtendedMantissa) : Prop :=
  match em.roundBit, em.stickyBit with
  | false, false => m = power * em.mantissa
  | false, true => power * em.mantissa < m ∧ 2 * m < 2 * (power * em.mantissa) + power
  | true, false => 2 * m = 2 * (power * em.mantissa) + power
  | true, true =>
      2 * (power * em.mantissa) + power < 2 * m ∧ m < power * em.mantissa + power

theorem Cut.shiftRightOne {power m : Nat} {em : ExtendedMantissa} (hpos : 0 < power)
    (hcut : Cut power m em) : Cut (2 * power) m em.shiftRightOne := by
  obtain ⟨left, round, sticky⟩ := em
  have hleft : power * left = 2 * (power * (left / 2)) + power * (left % 2) := by
    rw [← Nat.mul_left_comm, ← Nat.mul_add, Nat.div_add_mod]
  have hhalf : 2 * power * (left / 2) = 2 * (power * (left / 2)) := Nat.mul_assoc _ _ _
  rcases Nat.mod_two_eq_zero_or_one left with hbit | hbit <;>
    rw [hbit] at hleft <;>
    cases round <;> cases sticky <;>
    simp only [Cut, ExtendedMantissa.shiftRightOne, hbit, hhalf, bne_self_eq_false, Bool.or_true,
      Bool.or_false, Nat.reduceBNe] at hcut ⊢ <;>
    omega

/-- Cutting off digits one by one. -/
theorem cut_shiftRight (m count : Nat) :
    Cut (2 ^ count) m ((⟨m, false, false⟩ : ExtendedMantissa) >>> count) := by
  induction count with
  | zero => exact (Nat.one_mul m).symm
  | succ count ih =>
      rw [Nat.pow_succ, Nat.mul_comm]
      exact ih.shiftRightOne (Nat.two_pow_pos count)

/-- Rounding moves a number by no more than half of what was cut off. -/
theorem Cut.rounded {power m : Nat} {em : ExtendedMantissa} (hcut : Cut power m em) :
    2 * m ≤ 2 * (power * em.roundedMantissa) + power ∧
      2 * (power * em.roundedMantissa) ≤ 2 * m + power := by
  obtain ⟨left, round, sticky⟩ := em
  have hnext : power * (left + 1) = power * left + power := Nat.mul_succ _ _
  cases round <;> cases sticky <;>
    simp only [Cut, ExtendedMantissa.roundedMantissa, ExtendedMantissa.accuracy,
      Accuracy.roundToNearestEven] at hcut ⊢
  · omega
  · omega
  · -- a tie goes to the even neighbour
    rcases Nat.mod_two_eq_zero_or_one left with hbit | hbit <;> rw [hbit]
    · rw [Nat.add_zero]
      omega
    · omega
  · omega

/-- A number of at most fifty-three digits is not shifted. -/
theorem shiftToTargetExponent_short {m : Nat} {e : Int} (hlt : m < 2 ^ 53) (hlow : -1074 ≤ e) :
    shiftToTargetExponent .binary64 m e .exact = (⟨m, false, false⟩, e) := by
  have hlog : m.log2 ≤ 52 := by
    rcases Nat.eq_zero_or_pos m with rfl | hpos
    · decide
    · exact Nat.le_of_lt_succ ((Nat.log2_lt (Nat.ne_of_gt hpos)).2 hlt)
  have hnone : (Format.targetExponent .binary64 (totalExponent m e) - e).toNat = 0 := by
    simp only [Format.targetExponent, totalExponent, Format.mantissaBits, Format.minExponent]
    omega
  simp only [shiftToTargetExponent, shiftToExponent, hnone, ExtendedMantissa.ofMantissaAndAccuracy]
  exact congrArg _ (Int.add_zero e)

/-- A longer number loses its last digits. -/
theorem shiftToTargetExponent_long {m : Nat} {e : Int} (count : Nat) (hlog : m.log2 = 52 + count)
    (hlow : -1074 ≤ e + count) :
    shiftToTargetExponent .binary64 m e .exact =
      ((⟨m, false, false⟩ : ExtendedMantissa) >>> count, e + count) := by
  have hcount : (Format.targetExponent .binary64 (totalExponent m e) - e).toNat = count := by
    simp only [Format.targetExponent, totalExponent, Format.mantissaBits, Format.minExponent, hlog]
    omega
  simp only [shiftToTargetExponent, shiftToExponent, hcount, ExtendedMantissa.ofMantissaAndAccuracy]

/-- A number of more than fifty-two digits is rounded to fifty-three. If it is rounded up to a power
of two, that has a digit less. -/
theorem roundWithAccuracy_eq {m : Nat} {e : Int} (count : Nat) (hge : 2 ^ (52 + count) ≤ m)
    (hlt : m < 2 ^ (53 + count)) (hlow : -1074 ≤ e + count) :
    ∃ r, 2 * m ≤ 2 * (2 ^ count * r) + 2 ^ count ∧ 2 * (2 ^ count * r) ≤ 2 * m + 2 ^ count ∧
      ∃ n f hpos, roundWithAccuracy .binary64 .positive m e .exact = .finite .positive n f hpos ∧
        2 ^ 52 ≤ n ∧ n < 2 ^ 53 ∧
        ((n = r ∧ f = e + count) ∨ (2 * n = r ∧ f = e + count + 1)) := by
  have hzero : m ≠ 0 := Nat.ne_of_gt (Nat.lt_of_lt_of_le (Nat.two_pow_pos _) hge)
  have hlog : m.log2 = 52 + count := by
    refine (Nat.log2_eq_iff hzero).2 ⟨hge, ?_⟩
    rwa [Nat.add_right_comm]
  obtain ⟨hnear, hnear'⟩ := (cut_shiftRight m count).rounded
  rw [roundWithAccuracy, shiftToTargetExponent_long count hlog hlow]
  dsimp only
  generalize ((⟨m, false, false⟩ : ExtendedMantissa) >>> count).roundedMantissa = r at *
  have hge' : 2 ^ 52 ≤ r := by
    rw [Nat.pow_add, Nat.mul_comm] at hge
    by_contra hless
    have hle : 2 ^ count * r ≤ 2 ^ count * (2 ^ 52 - 1) := Nat.mul_le_mul_left _ (by omega)
    have hpos := Nat.two_pow_pos count
    omega
  have hle' : r ≤ 2 ^ 53 := by
    rw [Nat.pow_add, Nat.mul_comm] at hlt
    by_contra hmore
    have hle : 2 ^ count * (2 ^ 53 + 1) ≤ 2 ^ count * r := Nat.mul_le_mul_left _ (by omega)
    omega
  refine ⟨r, hnear, hnear', ?_⟩
  rcases Nat.lt_or_eq_of_le hle' with hshort | rfl
  · have hpos : 0 < r := Nat.lt_of_lt_of_le (by decide) hge'
    rw [shiftToTargetExponent_short hshort hlow]
    exact ⟨r, e + count, hpos, dif_neg (Nat.ne_of_gt hpos), hge', hshort, .inl ⟨rfl, rfl⟩⟩
  · have hcarry : shiftToTargetExponent .binary64 (2 ^ 53) (e + count) .exact =
        (⟨2 ^ 52, false, false⟩, e + count + 1) := by
      rw [shiftToTargetExponent_long 1 Nat.log2_two_pow (Int.le_add_one hlow)]
      rfl
    rw [hcarry]
    exact ⟨2 ^ 52, e + count + 1, by decide, rfl, Nat.le_refl _, by decide, .inr ⟨rfl, rfl⟩⟩

/-! ### Doubles -/

theorem unpackSign_packComponents {spec : Format} (sign : Sign)
    (exponent : BitVec spec.exponentBits) (significand : BitVec spec.mantissaBitsWithoutImplicit) :
    unpackSign (packComponents spec sign exponent significand) = sign.toBitVec := by
  refine BitVec.eq_of_getLsbD_eq fun i hi => ?_
  obtain rfl := Nat.lt_one_iff.1 hi
  simp [unpackSign, packComponents, BitVec.getLsbD_append, BitVec.getElem_append]

/-- A double is `m · 2 ^ e`, for a significand of fifty-three binary digits and an exponent in
range. -/
structure Normal (x : Float) (m : Nat) (e : Int) : Prop where
  ge : 2 ^ 52 ≤ m
  lt : m < 2 ^ 53
  low : -1074 ≤ e
  high : e ≤ 971
  unpack_eq : ∃ hpos, x.toModel.unpack = .finite .positive m e hpos

/-- Packing a significand and an exponent in range loses nothing. -/
theorem normal_pack {m : Nat} {e : Int} (hpos : 0 < m) (hge : 2 ^ 52 ≤ m) (hlt : m < 2 ^ 53)
    (hlow : -1074 ≤ e) (hhigh : e ≤ 971) :
    Normal (.ofModel (.pack (.finite .positive m e hpos))) m e := by
  refine ⟨hge, hlt, hlow, hhigh, hpos, ?_⟩
  obtain ⟨biased, hbiased⟩ : ∃ biased : Nat, (biased : Int) = e + 1023 + 52 :=
    ⟨(e + 1023 + 52).toNat, Int.toNat_of_nonneg (by omega)⟩
  have hlog : m.log2 + 1 = 53 := by
    rw [(Nat.log2_eq_iff (Nat.ne_of_gt hpos)).2 ⟨hge, hlt⟩]
  have hpack : UnpackedFloat.pack .binary64 (.finite .positive m e hpos) =
      packComponents .binary64 .positive (BitVec.ofNat 11 biased) (BitVec.ofNat 52 m) := by
    have hnat : (e + 1023 + 52).toNat = biased := by omega
    change (if 2 ^ 11 ≤ (e + 1023 + 52).toNat + 1 then _ else if m.log2 + 1 = 53 then
      packComponents .binary64 .positive (BitVec.ofNat 11 (e + 1023 + 52).toNat) _ else _) = _
    rw [hnat, if_neg (by omega), if_pos hlog]
  have hexponent : (BitVec.ofNat 11 biased).toNat = biased := by
    rw [BitVec.toNat_ofNat, Nat.mod_eq_of_lt (by omega)]
  have hsignificand : (1#1 ++ BitVec.ofNat 52 m).toNat = m := by
    rw [BitVec.toNat_append, ← Nat.shiftLeft_add_eq_or_of_lt (BitVec.isLt _), BitVec.toNat_ofNat,
      BitVec.toNat_ofNat, Nat.shiftLeft_eq]
    omega
  have hfinite : BitVec.ofNat 11 biased ≠ -1#11 := by
    intro heq
    have hall := congrArg BitVec.toNat heq
    rw [hexponent] at hall
    change biased = 2047 at hall
    omega
  have hnormal : BitVec.ofNat 11 biased ≠ 0#11 := by
    intro heq
    have hnone := congrArg BitVec.toNat heq
    rw [hexponent] at hnone
    change biased = 0 at hnone
    omega
  change UnpackedFloat.unpack .binary64
    (UnpackedFloat.pack .binary64 (.finite .positive m e hpos)) = _
  rw [hpack, UnpackedFloat.unpack]
  simp only [unpackMantissa_packComponents, unpackExponent_packComponents,
    unpackSign_packComponents, hfinite, hnormal, if_false, hexponent, hsignificand]
  have hbias : Format.exponentBias .binary64 = 1023 := rfl
  have he : (biased : Int) - (Format.exponentBias .binary64 + (52 : Nat)) = e := by omega
  rw [he]
  rfl

/-- A double is `r · 2 ^ e`, where rounding may have made `r` a power of two with a digit more. -/
def Rounded (x : Float) (r : Nat) (e : Int) : Prop :=
  Normal x r e ∨ ∃ half, 2 * half = r ∧ Normal x half (e + 1)

/-- The product of two doubles is rounded to fifty-three digits. -/
theorem Normal.mul {x y : Float} {m n : Nat} {e f : Int} (hx : Normal x m e) (hy : Normal y n f)
    (count : Nat) (hge : 2 ^ (52 + count) ≤ m * n) (hlt : m * n < 2 ^ (53 + count))
    (hlow : -1074 ≤ e + f + count) (hhigh : e + f + count < 971) :
    ∃ r, 2 * (m * n) ≤ 2 * (2 ^ count * r) + 2 ^ count ∧
      2 * (2 ^ count * r) ≤ 2 * (m * n) + 2 ^ count ∧ Rounded (x * y) r (e + f + count) := by
  obtain ⟨hm, hx⟩ := hx.unpack_eq
  obtain ⟨hn, hy⟩ := hy.unpack_eq
  obtain ⟨r, hnear, hnear', k, g, hpos, hround, hge, hlt, hcases⟩ :=
    roundWithAccuracy_eq count hge hlt hlow
  have hmul : x * y = .ofModel (.pack (.finite .positive k g hpos)) := by
    change Float.ofModel (.pack (UnpackedFloat.mul .binary64 x.toModel.unpack y.toModel.unpack)) = _
    rw [hx, hy]
    exact congrArg (Float.ofModel ∘ Float.Model.pack) hround
  refine ⟨r, hnear, hnear', ?_⟩
  rw [hmul]
  rcases hcases with ⟨rfl, rfl⟩ | ⟨hhalf, rfl⟩
  · exact .inl (normal_pack hpos hge hlt hlow (Int.le_of_lt hhigh))
  · exact .inr ⟨k, hhalf, normal_pack hpos hge hlt (by omega) (by omega)⟩

/-- A number that has its last digits cut off is divided by a power of two. -/
theorem mantissa_shiftRight (em : ExtendedMantissa) (count : Nat) :
    (em >>> count).mantissa = em.mantissa / 2 ^ count := by
  induction count with
  | zero => exact (Nat.div_one em.mantissa).symm
  | succ count ih =>
      have hhalf : (em >>> (count + 1)).mantissa = (em >>> count).mantissa / 2 := rfl
      rw [hhalf, ih, Nat.div_div_eq_div_mul, Nat.pow_succ]

/-- Truncation keeps the whole part, or as much of it as a word holds. -/
theorem Normal.toUInt64_eq {x : Float} {m whole : Nat} {e : Int} (hx : Normal x m e)
    (hwhole : roundToInt .positive m e = (whole : Nat)) : x.toUInt64 = .ofNatClamp whole := by
  obtain ⟨hpos, hunpack⟩ := hx.unpack_eq
  change x.toModel.unpack.toUInt64 = _
  rw [hunpack, UnpackedFloat.toUInt64, UnpackedFloat.toInt, hwhole, Int.toNat_natCast]

/-- Truncation drops the digits behind the point. -/
theorem Normal.toUInt64 {x : Float} {m count : Nat} (hx : Normal x m (-(count : Int))) :
    x.toUInt64.toNat = m / 2 ^ count := by
  have hwhole : roundToInt .positive m (-(count : Int)) = (m / 2 ^ count : Nat) := by
    have hnone : (-(count : Int) - 0).toNat = 0 := by omega
    have hleft : (0 - -(count : Int)).toNat = count := by omega
    simp only [roundToInt, decreaseExponent, shiftToExponent, hnone,
      ExtendedMantissa.ofMantissaAndAccuracy, Sign.apply]
    rw [Nat.shiftLeft_zero, Int.natCast_zero, Int.sub_zero, hleft, mantissa_shiftRight]
  have hsmall : m / 2 ^ count < UInt64.size :=
    Nat.lt_of_le_of_lt (Nat.div_le_self _ _) (Nat.lt_trans hx.lt (by decide))
  rw [hx.toUInt64_eq hwhole, UInt64.ofNatClamp_eq_ofNat _ hsmall]
  exact Nat.mod_eq_of_lt hsmall

/-- Truncation makes nothing larger. -/
theorem Normal.toUInt64_le {x : Float} {m e : Nat} (hx : Normal x m e) :
    x.toUInt64.toNat ≤ m * 2 ^ e := by
  have hwhole : roundToInt .positive m e = (m * 2 ^ e : Nat) := by
    have hall : ((e : Int) - 0).toNat = e := by omega
    have hnone : (0 - ((e : Int) - e)).toNat = 0 := by omega
    simp only [roundToInt, decreaseExponent, shiftToExponent, hall, hnone,
      ExtendedMantissa.ofMantissaAndAccuracy, Sign.apply, mantissa_shiftRight]
    rw [Nat.pow_zero, Nat.div_one, Nat.shiftLeft_eq]
  rw [hx.toUInt64_eq hwhole, UInt64.ofNatClamp]
  split
  · exact Nat.le_refl _
  · rename_i hbeyond
    exact Nat.le_trans (Nat.sub_le _ _) (Nat.not_lt.1 hbeyond)

/-- A natural of at most fifty-three digits is shifted to just as many. -/
theorem exists_shift {n : Nat} (hpos : 0 < n) (hlt : n < 2 ^ 53) :
    ∃ shift, n.log2 + shift = 52 ∧ 2 ^ 52 ≤ n * 2 ^ shift ∧ n * 2 ^ shift < 2 ^ 53 := by
  have hlog := (Nat.log2_lt (Nat.ne_of_gt hpos)).2 hlt
  obtain ⟨shift, hshift⟩ : ∃ shift, n.log2 + shift = 52 := ⟨52 - n.log2, by omega⟩
  refine ⟨shift, hshift, ?_, ?_⟩
  · rw [← hshift, Nat.pow_add]
    exact Nat.mul_le_mul_right _ (Nat.log2_self_le (Nat.ne_of_gt hpos))
  · have hpow : 2 ^ 53 = 2 ^ (n.log2 + 1) * 2 ^ shift := by
      rw [← Nat.pow_add, Nat.add_right_comm, hshift]
    rw [hpow]
    exact Nat.mul_lt_mul_of_pos_right Nat.lt_log2_self (Nat.two_pow_pos shift)

/-- A natural of at most fifty-three digits is a double. -/
theorem normal_ofNat {n count : Nat} (hge : 2 ^ 52 ≤ n * 2 ^ count) (hlt : n * 2 ^ count < 2 ^ 53) :
    Normal n.toUInt64.toFloat (n * 2 ^ count) (-(count : Int)) := by
  have hpos : 0 < n := Nat.pos_of_mul_pos_right (Nat.lt_of_lt_of_le (by decide) hge)
  have hcount : count ≤ 52 := by
    have hpow : 2 ^ count < 2 ^ 53 := Nat.lt_of_le_of_lt (Nat.le_mul_of_pos_left _ hpos) hlt
    exact Nat.le_of_lt_succ ((Nat.pow_lt_pow_iff_right (by decide)).1 hpow)
  have hlog : n.log2 + count = 52 := by
    have hdigits : n.log2 = 52 - count := by
      refine (Nat.log2_eq_iff (Nat.ne_of_gt hpos)).2 ⟨?_, ?_⟩
      · refine Nat.le_of_mul_le_mul_right ?_ (Nat.two_pow_pos count)
        rwa [← Nat.pow_add, Nat.sub_add_cancel hcount]
      · refine Nat.lt_of_mul_lt_mul_right (a := 2 ^ count) ?_
        rwa [← Nat.pow_add, Nat.add_right_comm, Nat.sub_add_cancel hcount]
    omega
  have hword : n.toUInt64.toNat = n := by
    have hle : n ≤ n * 2 ^ count := Nat.le_mul_of_pos_right _ (Nat.two_pow_pos count)
    exact Nat.mod_eq_of_lt (by omega)
  have hround : UnpackedFloat.ofNat .binary64 n =
      roundWithAccuracy .binary64 .positive (n * 2 ^ count) (-(count : Int)) .exact := by
    have hshift : (-Format.targetExponent .binary64 (totalExponent n 0)).toNat = count := by
      simp only [Format.targetExponent, totalExponent, Format.mantissaBits, Format.minExponent]
      omega
    rw [UnpackedFloat.ofNat, UnpackedFloat.ofInt, UnpackedFloat.normalize,
      Int.compare_eq_gt.2 (Int.natCast_pos.2 hpos)]
    simp only [UnpackedFloat.round, decreaseExponent, Int.zero_sub, hshift, Int.toNat_natCast,
      Nat.shiftLeft_eq]
  obtain ⟨r, hnear, hnear', k, f, hk, heq, hge', hlt', hcases⟩ :=
    roundWithAccuracy_eq (m := n * 2 ^ count) (e := -(count : Int)) 0 hge hlt (by omega)
  rw [Nat.pow_zero, Nat.one_mul] at hnear hnear'
  have hdouble : n.toUInt64.toFloat = .ofModel (.pack (.finite .positive k f hk)) := by
    change Float.ofModel (.pack (UnpackedFloat.ofNat .binary64 n.toUInt64.toNat)) = _
    rw [hword, hround, heq]
  rw [hdouble]
  rcases hcases with ⟨rfl, rfl⟩ | ⟨hhalf, -⟩
  · obtain rfl : k = n * 2 ^ count := by omega
    have hexponent : -(count : Int) + (0 : Nat) = -(count : Int) := Int.add_zero _
    rw [hexponent]
    exact normal_pack hk hge' hlt' (by omega) (by omega)
  · omega

theorem normal_one : Normal (Float.ofBits 0x3FF0000000000000) (2 ^ 52) (-(52 : Nat)) :=
  ⟨by decide, by decide, by decide, by decide, by decide, rfl⟩

/-- Taking a natural of at most fifty-three digits as a double changes nothing. -/
theorem normal_ofInt {n count : Nat} (hge : 2 ^ 52 ≤ n * 2 ^ count) (hlt : n * 2 ^ count < 2 ^ 53) :
    Normal (ofInt n) (n * 2 ^ count) (-(count : Int)) := by
  have hshort : n < 2 ^ 53 := Nat.lt_of_le_of_lt (Nat.le_mul_of_pos_right _ (Nat.two_pow_pos _)) hlt
  have hproduct : ofInt n = n.toUInt64.toFloat * Float.ofBits 0x3FF0000000000000 := by
    have hsign : ¬ (n : Int) < 0 := Int.not_lt.2 (Int.natCast_nonneg n)
    rw [ofInt, toFloat, decide_eq_false hsign, Int.natAbs_natCast,
      Float.ofScientific, dif_pos ⟨hshort, Nat.zero_le _⟩]
    rfl
  have hwhole := normal_ofNat hge hlt
  have hlow := hwhole.low
  obtain ⟨r, hnear, hnear', hsame | ⟨half, hhalf, hcarried⟩⟩ :=
    hwhole.mul normal_one 52 (Nat.mul_le_mul_right (2 ^ 52) hge)
      (Nat.mul_lt_mul_of_pos_right hlt (by decide)) (by omega) (by omega)
  · obtain rfl : r = n * 2 ^ count := by omega
    have hexponent : -(count : Int) + -(52 : Nat) + (52 : Nat) = -(count : Int) := by omega
    rwa [hproduct, ← hexponent]
  · have hge' := hcarried.ge
    omega

/-- A longer one is rounded to fifty-three. -/
theorem exists_normal_ofInt {n : Nat} (hge : 2 ^ 53 ≤ n) (hlt : n < 2 ^ 64) :
    ∃ m e : Nat, 0 < e ∧ e ≤ 12 ∧ Normal (ofInt n) m e ∧ 2 * (m * 2 ^ e) ≤ 2 * n + 2 ^ e := by
  have hpos : 0 < n := Nat.lt_of_lt_of_le (by decide) hge
  have hlow : 53 ≤ n.log2 := (Nat.le_log2 (Nat.ne_of_gt hpos)).2 hge
  have hhigh : n.log2 < 64 := (Nat.log2_lt (Nat.ne_of_gt hpos)).2 hlt
  obtain ⟨more, hmore⟩ : ∃ more, n.log2 = 52 + more := ⟨n.log2 - 52, by omega⟩
  -- the digits behind the point are cut off, and `more` before it
  have hge' : 2 ^ (52 + (53 + more)) ≤ (n <<< 53) * 10 ^ 0 := by
    rw [Nat.shiftLeft_eq, Nat.pow_zero, Nat.mul_one, Nat.add_left_comm, Nat.pow_add, Nat.mul_comm,
      ← hmore]
    exact Nat.mul_le_mul_right _ (Nat.log2_self_le (Nat.ne_of_gt hpos))
  have hlt' : (n <<< 53) * 10 ^ 0 < 2 ^ (53 + (53 + more)) := by
    have hdigits : 53 + more = n.log2 + 1 := by omega
    rw [Nat.shiftLeft_eq, Nat.pow_zero, Nat.mul_one, hdigits, Nat.pow_add, Nat.mul_comm]
    exact Nat.mul_lt_mul_of_pos_left Nat.lt_log2_self (Nat.two_pow_pos _)
  obtain ⟨r, -, hnear, m, f, hm, hround, hlong, hshort, hcases⟩ :=
    roundWithAccuracy_eq (e := -(53 : Nat) + 0) (53 + more) hge' hlt' (by omega)
  have hdouble : ofInt n = .ofModel (.pack (.finite .positive m f hm)) := by
    have hsign : ¬ (n : Int) < 0 := Int.not_lt.2 (Int.natCast_nonneg n)
    have hnormal : ¬ (0 : Int) < -((2 ^ 11 : Int) + n.log2) := by omega
    have hwide : ¬ (n < 2 ^ 53 ∧ 0 ≤ 22) := fun h => Nat.not_lt.2 hge h.1
    rw [ofInt, toFloat, decide_eq_false hsign, Int.natAbs_natCast, Int.natAbs_zero,
      Float.ofScientific, dif_neg hwide]
    change Float.ofModel (.pack (UnpackedFloat.ofScientific .binary64 n 0)) = _
    rw [UnpackedFloat.ofScientific, dif_neg (Nat.ne_of_gt hpos), if_neg (by decide),
      if_neg hnormal, if_pos (by decide)]
    exact congrArg (Float.ofModel ∘ Float.Model.pack) hround
  rw [Nat.shiftLeft_eq, Nat.pow_zero, Nat.mul_one, Nat.pow_add, Nat.mul_assoc] at hnear
  rw [hdouble]
  rcases hcases with ⟨rfl, rfl⟩ | ⟨hhalf, rfl⟩
  · have hexponent : -((53 : Nat) : Int) + 0 + (53 + more : Nat) = (more : Nat) := by omega
    rw [hexponent]
    refine ⟨m, more, by omega, by omega, normal_pack hm hlong hshort (by omega) (by omega), ?_⟩
    rw [Nat.mul_comm m]
    omega
  · have hexponent : -((53 : Nat) : Int) + 0 + (53 + more : Nat) + 1 = (more + 1 : Nat) := by omega
    rw [hexponent]
    refine ⟨m, more + 1, by omega, by omega, normal_pack hm hlong hshort (by omega) (by omega), ?_⟩
    have hcarry : m * 2 ^ (more + 1) = 2 ^ more * r := by
      rw [← hhalf, Nat.pow_succ, Nat.mul_comm, Nat.mul_assoc]
    rw [hcarry, Nat.pow_succ]
    omega

end IssueSearch.Decimal
