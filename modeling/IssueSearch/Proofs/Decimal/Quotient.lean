import IssueSearch.Decimal.Range
import IssueSearch.Proofs.Decimal.Product
/-!
Quotients of doubles. A number divided by a finite one other than zero is a number, and a quotient
of finite numbers is finite as long as its first digit stays away from that of the greatest double.
So the thousandth part of an integer that has a nearest double is finite.
-/
namespace IssueSearch.Decimal

open Float.Model Float.Model.UnpackedFloat

/-! ### Packing -/

/-- What packing keeps finite: zero, or an exponent up to that of the greatest double. -/
def Bounded : UnpackedFloat → Prop
  | .zero _ => True
  | .finite _ _ e _ => e ≤ 971
  | _ => False

theorem Bounded.isFinite {u : UnpackedFloat} (hu : Bounded u) : u.isFinite = true := by
  cases u with
  | notANumber => exact hu.elim
  | infinity sign => exact hu.elim
  | zero sign => rfl
  | finite sign m e hpos => rfl

theorem isNaN_of_isFinite {x : Float} (hx : x.isFinite = true) : x.isNaN = false := by
  change x.toModel.unpack.isFinite = true at hx
  change x.toModel.unpack.isNaN = false
  cases hunpack : x.toModel.unpack with
  | notANumber => rw [hunpack] at hx; exact hx.symm
  | _ => rfl

theorem isInf_of_isFinite {x : Float} (hx : x.isFinite = true) : x.isInf = false := by
  change x.toModel.unpack.isFinite = true at hx
  change x.toModel.unpack.isInf = false
  cases hunpack : x.toModel.unpack with
  | infinity sign => rw [hunpack] at hx; exact hx.symm
  | _ => rfl

/-- Bits that are finite have an exponent in range. -/
theorem bounded_unpack {b : BitVec (Format.numBits .binary64)}
    (hexponent : @unpackExponent .binary64 b ≠ -1#11) :
    Bounded (UnpackedFloat.unpack .binary64 b) := by
  have hlt : (@unpackExponent .binary64 b).toNat < 2047 := by
    have hle : (@unpackExponent .binary64 b).toNat < 2 ^ 11 := BitVec.isLt _
    have hne : (@unpackExponent .binary64 b).toNat ≠ 2047 := fun heq =>
      hexponent (BitVec.eq_of_toNat_eq heq)
    omega
  have hbias : (Format.exponentBias .binary64 : Int) = 1023 := rfl
  rw [UnpackedFloat.unpack, if_neg hexponent]
  split
  · rename_i hsubnormal
    have hnone : (@unpackExponent .binary64 b).toNat = 0 :=
      congrArg BitVec.toNat hsubnormal
    split
    · trivial
    · simp only [Bounded, hbias, hnone]
      decide
  · simp only [Bounded, hbias]
    omega

/-- All ones in the exponent make an infinity or no number at all. -/
theorem isFinite_unpack_special {b : BitVec (Format.numBits .binary64)}
    (hexponent : @unpackExponent .binary64 b = -1#11) :
    (UnpackedFloat.unpack .binary64 b).isFinite = false := by
  rw [UnpackedFloat.unpack, if_pos hexponent]
  split
  · rfl
  · rfl

theorem bounded_of_isFinite {x : Float} (hx : x.isFinite = true) : Bounded x.toModel.unpack := by
  refine bounded_unpack fun hexponent => ?_
  exact absurd ((isFinite_unpack_special hexponent).symm.trans hx) Bool.false_ne_true

theorem pack_finite (sign : Sign) {m : Nat} {e : Int} (hpos : 0 < m) (hhigh : e ≤ 971) :
    @unpackExponent .binary64 (UnpackedFloat.pack .binary64 (.finite sign m e hpos)) ≠
      -1#11 := by
  have hbias : (Format.exponentBias .binary64 : Int) = 1023 := rfl
  have hfits : ¬ 2 ^ 11 ≤ (e + Format.exponentBias .binary64 + (52 : Nat)).toNat + 1 := by
    rw [hbias]
    omega
  rw [UnpackedFloat.pack]
  dsimp only
  rw [if_neg hfits]
  split
  · rw [unpackExponent_packComponents]
    intro heq
    have hall := congrArg BitVec.toNat heq
    rw [BitVec.toNat_ofNat] at hall
    change _ = 2047 at hall
    omega
  · rw [unpackExponent_packComponents]
    decide

/-- Packing keeps finite what is in range. -/
theorem Bounded.pack {u : UnpackedFloat} (hu : Bounded u) :
    (Float.ofModel (.pack u)).isFinite = true := by
  cases u with
  | notANumber => exact hu.elim
  | infinity sign => exact hu.elim
  | zero sign => cases sign <;> rfl
  | finite sign m e hpos => exact (bounded_unpack (pack_finite sign hpos hu)).isFinite

/-- Packing makes an infinity of what is out of range, but no number stops being one. -/
theorem isNaN_pack {u : UnpackedFloat} (hu : u.isNaN = false) :
    (Float.ofModel (.pack u)).isNaN = false := by
  cases u with
  | notANumber => exact hu
  | infinity sign => cases sign <;> rfl
  | zero sign => cases sign <;> rfl
  | finite sign m e hpos =>
      by_cases hhigh : e ≤ 971
      · exact isNaN_of_isFinite (Bounded.pack (u := .finite sign m e hpos) hhigh)
      · have hbias : (Format.exponentBias .binary64 : Int) = 1023 := rfl
        have hover : UnpackedFloat.pack .binary64 (.finite sign m e hpos) =
            packedInfinity .binary64 sign := by
          have hlarge : 2 ^ 11 ≤ (e + Format.exponentBias .binary64 + (52 : Nat)).toNat + 1 := by
            rw [hbias]
            omega
          exact if_pos hlarge
        change (UnpackedFloat.unpack .binary64 (UnpackedFloat.pack .binary64 _)).isNaN = false
        rw [hover]
        cases sign <;> rfl

theorem isFinite_neg {x : Float} (hx : x.isFinite = true) : (-x).isFinite = true := by
  have hbounded := bounded_of_isFinite hx
  have hneg : Bounded x.toModel.unpack.neg := by
    cases hunpack : x.toModel.unpack with
    | notANumber => rw [hunpack] at hbounded; exact hbounded.elim
    | infinity sign => rw [hunpack] at hbounded; exact hbounded.elim
    | zero sign => trivial
    | finite sign m e hpos => rw [hunpack] at hbounded; exact hbounded
  exact hneg.pack

/-! ### Rounding -/

theorem roundedMantissa_le (em : ExtendedMantissa) : em.roundedMantissa ≤ em.mantissa + 1 := by
  obtain ⟨m, round, sticky⟩ := em
  cases round <;> cases sticky <;>
    simp only [ExtendedMantissa.roundedMantissa, ExtendedMantissa.accuracy,
      Accuracy.roundToNearestEven]
  · exact Nat.le_succ m
  · exact Nat.le_succ m
  · have hbit := Nat.mod_lt m Nat.two_pos
    omega
  · exact Nat.le_refl _

theorem mantissa_ofMantissaAndAccuracy (m : Nat) (accuracy : Accuracy) :
    (ExtendedMantissa.ofMantissaAndAccuracy m accuracy).mantissa = m := by
  cases accuracy with
  | exact => rfl
  | inexact half => cases half <;> rfl

theorem log2_le_of_le {m k : Nat} (hle : m ≤ 2 ^ k) : m.log2 ≤ k := by
  rcases Nat.eq_zero_or_pos m with rfl | hpos
  · exact Nat.zero_le k
  · refine Nat.le_of_lt_succ ((Nat.log2_lt (Nat.ne_of_gt hpos)).2 ?_)
    exact Nat.lt_of_le_of_lt hle (Nat.pow_lt_pow_succ (by decide))

/-- What lies below the last power of two but one is in range when it is rounded. -/
theorem bounded_roundWithAccuracy (sign : Sign) {m : Nat} {e : Int} (accuracy : Accuracy)
    (hexponent : e ≤ 970) (hfirst : m.log2 + e ≤ 1022) :
    Bounded (roundWithAccuracy .binary64 sign m e accuracy) := by
  have htarget : ∀ total : Int,
      Format.targetExponent .binary64 total = max (total - 53) (-1074) := fun _ => rfl
  -- the first shift leaves at most fifty-three digits
  obtain ⟨count, hcount⟩ : ∃ count : Nat,
      count = (Format.targetExponent .binary64 (totalExponent m e) - e).toNat := ⟨_, rfl⟩
  rw [htarget, totalExponent] at hcount
  have hdigits : m / 2 ^ count < 2 ^ 53 := by
    rw [Nat.div_lt_iff_lt_mul (Nat.two_pow_pos count), ← Nat.pow_add]
    exact Nat.lt_of_lt_of_le Nat.lt_log2_self (Nat.pow_le_pow_right Nat.two_pos (by omega))
  have hshift : shiftToTargetExponent .binary64 m e accuracy =
      (ExtendedMantissa.ofMantissaAndAccuracy m accuracy >>> count, e + count) := by
    simp only [shiftToTargetExponent, shiftToExponent, htarget, totalExponent, hcount]
  have hround : (ExtendedMantissa.ofMantissaAndAccuracy m accuracy >>> count).roundedMantissa ≤
      2 ^ 53 := by
    refine Nat.le_trans (roundedMantissa_le _) ?_
    rw [mantissa_shiftRight, mantissa_ofMantissaAndAccuracy]
    exact hdigits
  rw [roundWithAccuracy, hshift]
  dsimp only
  generalize (ExtendedMantissa.ofMantissaAndAccuracy m accuracy >>> count).roundedMantissa = r at *
  -- and the second shifts by one digit at most
  have hlog := log2_le_of_le hround
  split
  · trivial
  · change _ ≤ (971 : Int)
    simp only [shiftToTargetExponent, shiftToExponent, htarget, totalExponent]
    omega

/-! ### Division -/

/-- Finite numbers whose first digits lie no further apart have a finite quotient. -/
theorem bounded_div (s₁ s₂ : Sign) {m₁ m₂ : Nat} {e₁ e₂ : Int} (h₁ : 0 < m₁) (h₂ : 0 < m₂)
    (hfirst : m₁.log2 + e₁ - (m₂.log2 + e₂) ≤ 1022) :
    Bounded (UnpackedFloat.div .binary64 (.finite s₁ m₁ e₁ h₁) (.finite s₂ m₂ e₂ h₂)) := by
  have htarget : ∀ total : Int,
      Format.targetExponent .binary64 total = max (total - 53) (-1074) := fun _ => rfl
  rw [UnpackedFloat.div, divCore]
  dsimp only
  rw [htarget, totalExponent, totalExponent]
  generalize hleast : min (e₁ - e₂) _ = least
  obtain ⟨shift, hshift⟩ : ∃ shift : Nat, shift = (e₁ - e₂ - least).toNat := ⟨_, rfl⟩
  rw [← hshift, Nat.shiftLeft_eq]
  refine bounded_roundWithAccuracy _ _ (by omega) ?_
  -- the quotient has no more digits than the difference tells
  have hquotient : m₁ * 2 ^ shift / m₂ < 2 ^ (m₁.log2 + 1 + shift - m₂.log2) := by
    rw [Nat.div_lt_iff_lt_mul h₂]
    calc m₁ * 2 ^ shift < 2 ^ (m₁.log2 + 1) * 2 ^ shift :=
          Nat.mul_lt_mul_of_pos_right Nat.lt_log2_self (Nat.two_pow_pos shift)
      _ ≤ 2 ^ (m₁.log2 + 1 + shift - m₂.log2) * 2 ^ m₂.log2 := by
          rw [← Nat.pow_add, ← Nat.pow_add]
          exact Nat.pow_le_pow_right Nat.two_pos (by omega)
      _ ≤ 2 ^ (m₁.log2 + 1 + shift - m₂.log2) * m₂ :=
          Nat.mul_le_mul_left _ (Nat.log2_self_le (Nat.ne_of_gt h₂))
  generalize m₁ * 2 ^ shift / m₂ = quotient at hquotient
  rcases Nat.eq_zero_or_pos quotient with rfl | hpos
  · rw [Nat.log2_zero]
    omega
  · have hlog := (Nat.log2_lt (Nat.ne_of_gt hpos)).2 hquotient
    omega

theorem isNaN_roundWithAccuracy (spec : Format) (sign : Sign) (m : Nat) (e : Int)
    (accuracy : Accuracy) : (roundWithAccuracy spec sign m e accuracy).isNaN = false := by
  rw [roundWithAccuracy]
  dsimp only
  split
  · rfl
  · rfl

theorem div_eq (x y : Float) : x / y =
    .ofModel (.pack (UnpackedFloat.div .binary64 x.toModel.unpack y.toModel.unpack)) := rfl

/-- A number divided by a finite one other than zero is a number. -/
theorem isNaN_div {x y : Float} {sign : Sign} {m : Nat} {e : Int} {hpos : 0 < m}
    (hx : x.isNaN = false) (hy : y.toModel.unpack = .finite sign m e hpos) :
    (x / y).isNaN = false := by
  change x.toModel.unpack.isNaN = false at hx
  rw [div_eq, hy]
  refine isNaN_pack ?_
  cases hunpack : x.toModel.unpack with
  | notANumber => rw [hunpack] at hx; exact hx
  | infinity _ => rfl
  | zero _ => rfl
  | finite _ _ _ _ => exact isNaN_roundWithAccuracy ..

/-! ### Thousandth parts -/

/-- A thousand is a double. -/
theorem unpack_thousand : (1000.0 : Float).toModel.unpack =
    .finite .positive (1000 * 2 ^ 43) (-43) (by decide) := rfl

/-- A natural of at most fifty-three digits is a double, which is divided. -/
theorem isFinite_thousandth_short {n : Nat} (hpos : 0 < n) (hlt : n < 2 ^ 53) :
    (Float.ofScientific n true 3).isFinite = true := by
  obtain ⟨shift, -, hge, hlt'⟩ := exists_shift hpos hlt
  obtain ⟨hpos', hunpack⟩ := (normal_ofNat hge hlt').unpack_eq
  have hquotient : Float.ofScientific n true 3 = n.toUInt64.toFloat / 1000.0 :=
    dif_pos ⟨hlt, by decide⟩
  rw [hquotient, div_eq, hunpack, unpack_thousand]
  refine (bounded_div _ _ hpos' (by decide) ?_).pack
  have hlog : (n * 2 ^ shift).log2 = 52 := (Nat.log2_eq_iff (Nat.ne_of_gt hpos')).2 ⟨hge, hlt'⟩
  have hthousand : (1000 * 2 ^ 43).log2 = 52 := by decide
  rw [hlog, hthousand]
  omega

/-- A longer one is divided as it is. -/
theorem isFinite_thousandth_long {n : Nat} (hge : 2 ^ 53 ≤ n) (hlog : n.log2 < 1024) :
    (Float.ofScientific n true 3).isFinite = true := by
  have hpos : 0 < n := Nat.lt_of_lt_of_le (by decide) hge
  have hlong : ¬ (n < 2 ^ 53 ∧ 3 ≤ 22) := fun h => Nat.not_lt.2 hge h.1
  have hscale : Int.negOfNat 3 = -3 := rfl
  have hnormal : ¬ (-3 : Int) < -((2 ^ 11 : Int) + n.log2) := by omega
  have hquotient : Float.ofScientific n true 3 = .ofModel (.pack
      (UnpackedFloat.div .binary64 (.finite .positive n 0 hpos)
        (.finite .positive (10 ^ 3) 0 (by decide)))) := by
    rw [Float.ofScientific, dif_neg hlong]
    dsimp only
    rw [if_pos rfl, hscale, Float.Model.ofScientific, UnpackedFloat.ofScientific,
      dif_neg (Nat.ne_of_gt hpos), if_neg (by decide), if_neg hnormal, if_neg (by decide)]
    rfl
  have hthousand : (10 ^ 3).log2 = 9 := by decide
  rw [hquotient]
  refine (bounded_div _ _ hpos (by decide) ?_).pack
  rw [hthousand]
  omega

theorem log2_lt_of_lt_beyondDoubles {n : Nat} (hpos : 0 < n) (hlt : n < beyondDoubles) :
    n.log2 < 1024 := by
  have hbeyond : beyondDoubles ≤ Nat.pow 2 1024 := by
    unfold beyondDoubles
    exact Nat.sub_le (Nat.pow 2 1024) (Nat.pow 2 970)
  have hdigits : ∀ k, n < Nat.pow 2 k → n.log2 < k := fun k =>
    (Nat.log2_lt (Nat.ne_of_gt hpos)).2
  exact hdigits 1024 (Nat.lt_of_lt_of_le hlt hbeyond)

/-- The thousandth part of an integer that has a nearest double is finite. -/
theorem isFinite_thousandth (negative : Bool) {n : Nat} (hlt : n < beyondDoubles) :
    (toFloat negative n (-3)).isFinite = true := by
  have hsize : (Float.ofScientific n true 3).isFinite = true := by
    rcases Nat.eq_zero_or_pos n with rfl | hpos
    · decide
    · rcases Nat.lt_or_ge n (2 ^ 53) with hshort | hlong
      · exact isFinite_thousandth_short hpos hshort
      · exact isFinite_thousandth_long hlong (log2_lt_of_lt_beyondDoubles hpos hlt)
  cases negative with
  | false => exact hsize
  | true => exact isFinite_neg hsize

end IssueSearch.Decimal
