import IssueSearch.Filter.Reading
import IssueSearch.Number
import Mathlib.Data.List.Forall2
import Mathlib.Tactic.ByContra
/-!
What readings accept. For each reading, the values from which it reads a given thing; the faults of
all others are left aside.
-/
namespace IssueSearch

namespace Reading

variable {α β : Type} {read : Json → Reading α}

/-! ### Readings put together -/

theorem below_eq_ok_iff {step : Step} {reading : Reading α} {a : α} :
    reading.below step = .ok a ↔ reading = .ok a := by
  cases reading with
  | error faults => exact iff_of_false (by simp [below]) (by simp)
  | ok a' => rfl

theorem both_eq_ok_iff {first : Reading α} {second : Reading β} {pair : α × β} :
    both first second = .ok pair ↔ first = .ok pair.1 ∧ second = .ok pair.2 := by
  cases first with
  | error faults => cases second <;> simp [both]
  | ok a =>
      cases second with
      | error faults => simp [both]
      | ok b => simp [both, Prod.ext_iff]

theorem map_eq_ok_iff {reading : Reading α} {f : α → β} {b : β} :
    reading.map f = .ok b ↔ ∃ a, reading = .ok a ∧ f a = b := by
  cases reading with
  | error faults => simp [Except.map]
  | ok a => simp [Except.map]

theorem items_eq_ok_iff {start : Nat} {values : List Json} {as : List α} :
    items read start values = .ok as ↔
      List.Forall₂ (fun value a => read value = .ok a) values as := by
  induction values generalizing start as with
  | nil =>
      rw [items, List.forall₂_nil_left_iff]
      exact ⟨fun h => (Except.ok.inj h).symm, fun h => h ▸ rfl⟩
  | cons value rest ih =>
      rw [items, map_eq_ok_iff, List.forall₂_cons_left_iff]
      constructor
      · rintro ⟨⟨a, others⟩, hboth, rfl⟩
        obtain ⟨hfirst, hrest⟩ := both_eq_ok_iff.1 hboth
        exact ⟨a, others, below_eq_ok_iff.1 hfirst, ih.1 hrest, rfl⟩
      · rintro ⟨a, others, hfirst, hrest, rfl⟩
        exact ⟨(a, others), both_eq_ok_iff.2 ⟨below_eq_ok_iff.2 hfirst, ih.2 hrest⟩, rfl⟩

theorem orNull_eq_ok_iff {value : Json} {a : Option α} :
    orNull read value = .ok a ↔
      value = .null ∧ a = none ∨ value ≠ .null ∧ ∃ b, read value = .ok b ∧ a = some b := by
  cases value with
  | null => simp [orNull, eq_comm]
  | bool | int | float | str | arr | obj | foreign =>
      simp only [orNull, map_eq_ok_iff]
      simp [eq_comm]

end Reading

namespace FieldName

variable {α : Type} {read : Json → Reading α} {members : List (String × Json)} {name : String}
  {a : α}

theorem find?_single : (single name).find? members =
    (members.lookup name).map fun value => (name, value) := by
  rw [find?, single]
  cases members.lookup name with
  | none => rfl
  | some value => rfl

theorem required_single_eq_ok_iff : (single name).required read members = .ok a ↔
    ∃ value, members.lookup name = some value ∧ read value = .ok a := by
  rw [required, find?_single]
  cases members.lookup name with
  | none => simp
  | some value => simp [Reading.below_eq_ok_iff]

theorem withDefault_single_eq_ok_iff {usual : α} :
    (single name).withDefault usual read members = .ok a ↔
      members.lookup name = none ∧ a = usual ∨
        ∃ value, members.lookup name = some value ∧ read value = .ok a := by
  rw [withDefault, find?_single]
  cases members.lookup name with
  | none => simp [eq_comm]
  | some value => simp [Reading.below_eq_ok_iff]

end FieldName

/-! ### Texts, operators and scalars -/

theorem Reading.text_eq_ok_iff {value : Json} {s : String} :
    Reading.text value = .ok s ↔ value = .str s := by
  cases value with
  | str other => simp [Reading.text]
  | null | bool | int | float | arr | obj | foreign => simp [Reading.text, Reading.refuse]

theorem Operator.ofName?_eq_some_iff {name : String} {o : Operator} :
    Operator.ofName? name = some o ↔ name = o.name := by
  constructor
  · intro hfound
    rw [ofName?] at hfound
    have hname := List.find?_some hfound
    exact (beq_iff_eq.1 hname).symm
  · rintro rfl
    exact o.ofName?_name

theorem Operator.ofJson?_eq_some_iff {value : Json} {o : Operator} :
    Operator.ofJson? value = some o ↔ value = .str o.name := by
  cases value with
  | str name => simp [Operator.ofJson?, Operator.ofName?_eq_some_iff]
  | null | bool | int | float | arr | obj | foreign => simp [Operator.ofJson?]

theorem Scalar.ofJson?_eq_some_iff {value : Json} {s : Scalar} :
    Scalar.ofJson? value = some s ↔ value = s.toJson := by
  constructor
  · cases value with
    | bool | int | float | str =>
        intro hscalar
        rw [← Option.some.inj hscalar]
        rfl
    | null | arr | obj | foreign => simp [Scalar.ofJson?]
  · rintro rfl
    exact s.ofJson?_toJson

theorem Reading.scalar_eq_ok_iff {value : Json} {s : Scalar} :
    Reading.scalar value = .ok s ↔ value = s.toJson := by
  rw [← Scalar.ofJson?_eq_some_iff, Reading.scalar]
  cases Scalar.ofJson? value with
  | none => simp
  | some other => simp

/-- Items that are read as scalars are the values of those scalars. -/
theorem Reading.items_scalar_eq_ok_iff {start : Nat} {values : List Json} {scalars : List Scalar} :
    Reading.items Reading.scalar start values = .ok scalars ↔
      values = scalars.map Scalar.toJson := by
  rw [Reading.items_eq_ok_iff, ← List.forall₂_eq_eq_eq, List.forall₂_map_right_iff]
  simp only [Reading.scalar_eq_ok_iff]

/-! ### Flags -/

namespace Binary

theorem leastExponent_le {x : Float} {negative : Bool} {significand : Nat} {exponent : Int}
    (hx : ofFloat x = .finite negative significand exponent) : leastExponent ≤ exponent := by
  simp only [ofFloat] at hx
  split at hx
  · split at hx
    · cases hx
    · cases hx
  · split at hx
    · cases hx
      exact Int.le_refl _
    · cases hx
      rw [leastExponent]
      omega

end Binary

theorem two_pow_pos (k : Nat) : 0 < Nat.pow 2 k := Nat.pow_pos Nat.two_pos

theorem Position.one_pos : 0 < Position.one := by
  unfold one
  exact two_pow_pos (-Binary.leastExponent).toNat

theorem two_pow_shift {least exponent : Int} (hleast : least ≤ exponent) (hneg : least ≤ 0) :
    Nat.pow 2 (exponent - least).toNat * Nat.pow 2 (-exponent).toNat =
      Nat.pow 2 exponent.toNat * Nat.pow 2 (-least).toNat := by
  have hsum : (exponent - least).toNat + (-exponent).toNat =
      exponent.toNat + (-least).toNat := by omega
  simp only [Nat.pow_eq, ← Nat.pow_add, hsum]

/-- The units of a finite double are those of a whole number exactly if it is that number. -/
theorem Position.units_eq_iff (significand : Nat) {exponent : Int}
    (hleast : Binary.leastExponent ≤ exponent) (m : Nat) :
    significand * Nat.pow 2 (exponent - Binary.leastExponent).toNat = m * Position.one ↔
      significand * Nat.pow 2 exponent.toNat = m * Nat.pow 2 (-exponent).toNat := by
  have hshift : Nat.pow 2 (exponent - Binary.leastExponent).toNat * Nat.pow 2 (-exponent).toNat =
      Nat.pow 2 exponent.toNat * Position.one := by
    unfold one
    exact two_pow_shift hleast (by decide)
  rw [← Nat.mul_left_inj (Nat.ne_of_gt (two_pow_pos (-exponent).toNat)), Nat.mul_assoc, hshift,
    ← Nat.mul_assoc, Nat.mul_right_comm m, Nat.mul_left_inj (Nat.ne_of_gt Position.one_pos)]

theorem natCast_eq_mul_iff {units unit : Nat} (hunit : 0 < unit) {n : Int} :
    (units : Int) = n * unit ↔ ∃ m : Nat, units = m * unit ∧ n = m := by
  constructor
  · intro heq
    have hnonneg : 0 ≤ n := by
      by_contra hneg
      have hproduct := Int.mul_neg_of_neg_of_pos (Int.not_le.1 hneg) (Int.natCast_pos.2 hunit)
      omega
    obtain ⟨m, rfl⟩ := Int.eq_ofNat_of_zero_le hnonneg
    exact ⟨m, Int.ofNat.inj heq, rfl⟩
  · rintro ⟨m, rfl, rfl⟩
    exact Int.natCast_mul m unit

/-- Whether a signed number of units comes to a whole number. -/
theorem signed_eq_mul_iff {units unit : Nat} (hunit : 0 < unit) {negative : Bool} {n : Int} :
    (if negative = true then -(units : Int) else units) = n * unit ↔
      ∃ m : Nat, units = m * unit ∧ n = if negative = true then -(m : Int) else m := by
  cases negative with
  | false => exact natCast_eq_mul_iff hunit
  | true =>
      have hneg : (-(units : Int) = n * unit ↔ (units : Int) = -n * unit) := by
        rw [Int.neg_mul]
        omega
      rw [if_pos rfl, hneg, natCast_eq_mul_iff hunit]
      refine exists_congr fun m => and_congr_right fun _ => ?_
      rw [if_pos rfl]
      omega

theorem natAbs_signed (negative : Bool) (m : Nat) :
    (if negative = true then -(m : Int) else m).natAbs = m := by
  cases negative with
  | false => exact Int.natAbs_natCast m
  | true => exact (Int.natAbs_neg m).trans (Int.natAbs_natCast m)

/-- A double is read as an integer exactly if it is that integer, and that of sixty-four bits. -/
theorem Reading.integerOfFloat_eq_ok_iff {x : Float} {n : Int} :
    Reading.integerOfFloat x = .ok n ↔
      n.natAbs < Nat.pow 2 63 ∧ (Number.float x).position? = some (.ofInt n) := by
  rw [integerOfFloat, Number.position?]
  cases hx : Binary.ofFloat x with
  | nan => simp [Position.ofBinary?]
  | infinite negative =>
      cases negative <;>
        simp only [Position.ofBinary?, Position.ofInt, Bool.false_eq_true, if_true, if_false,
          Option.some.injEq, reduceCtorEq, and_false]
  | finite negative significand exponent =>
      have hunits := Position.units_eq_iff significand (Binary.leastExponent_le hx)
      have hpos := two_pow_pos (-exponent).toNat
      simp only [Position.ofBinary?, Position.ofInt, Option.some.injEq, Position.at.injEq,
        signed_eq_mul_iff Position.one_pos, hunits]
      generalize significand * Nat.pow 2 exponent.toNat = scaled
      generalize Nat.pow 2 (-exponent).toNat = unit at hpos
      constructor
      · intro hread
        split at hread
        · cases hread
        · rename_i hwhole
          split at hread
          · cases hread
          · rename_i hsize
            obtain rfl := Except.ok.inj hread
            refine ⟨?_, scaled / unit, ?_, rfl⟩
            · rw [natAbs_signed]
              exact Nat.lt_of_not_le hsize
            · rw [Nat.div_mul_cancel (Nat.dvd_of_mod_eq_zero (not_not.1 hwhole))]
      · rintro ⟨hsize, m, rfl, rfl⟩
        have hquotient : m * unit / unit = m := Nat.mul_div_cancel m hpos
        rw [natAbs_signed] at hsize
        rw [Nat.mul_mod_left, hquotient, if_neg (not_not.2 rfl), if_neg (Nat.not_le_of_lt hsize)]

/-- The values that are taken for a flag. -/
inductive Json.SpellsFlag : Json → Bool → Prop
  | bool (b : Bool) : SpellsFlag (.bool b) b
  | zero : SpellsFlag (.int 0) false
  | one : SpellsFlag (.int 1) true
  /-- A double equal to zero or one. -/
  | float {x : Float} {b : Bool} (equal : (Number.float x).position? = (Number.flag b).position?) :
      SpellsFlag (.float x) b
  /-- A word for no, in any ASCII case. -/
  | no {s word : String} (known : word ∈ ["0", "off", "f", "false", "n", "no"])
      (same : s.toList.map Char.toLower = word.toList) : SpellsFlag (.str s) false
  /-- A word for yes, in any ASCII case. -/
  | yes {s word : String} (known : word ∈ ["1", "on", "t", "true", "y", "yes"])
      (same : s.toList.map Char.toLower = word.toList) : SpellsFlag (.str s) true

namespace Reading

theorem flagOfInt_eq_ok_iff {n : Int} {b : Bool} :
    flagOfInt n = .ok b ↔ n = if b = true then 1 else 0 := by
  unfold flagOfInt
  split
  · rename_i hzero
    cases b <;> simp [hzero]
  · rename_i hzero
    split
    · rename_i hone
      cases b <;> simp [hone]
    · rename_i hone
      cases b <;> simp [hzero, hone, refuse]

theorem flagOfText?_eq_some_iff {s : String} {b : Bool} :
    flagOfText? s = some b ↔ Json.SpellsFlag (.str s) b := by
  constructor
  · intro hread
    simp only [flagOfText?] at hread
    split at hread
    · rename_i hno
      obtain ⟨word, hknown, hsame⟩ := List.any_eq_true.1 hno
      obtain rfl := Option.some.inj hread
      exact .no hknown (beq_iff_eq.1 hsame).symm
    · split at hread
      · rename_i hyes
        obtain ⟨word, hknown, hsame⟩ := List.any_eq_true.1 hyes
        obtain rfl := Option.some.inj hread
        exact .yes hknown (beq_iff_eq.1 hsame).symm
      · cases hread
  · intro hspells
    cases hspells with
    | @no _ word known same =>
        simp only [flagOfText?, same]
        clear same
        revert word
        decide
    | @yes _ word known same =>
        simp only [flagOfText?, same]
        clear same
        revert word
        decide

theorem flag_int_eq_ok_iff {n : Int} {b : Bool} :
    flag (.int n) = .ok b ↔ n = if b = true then 1 else 0 := by
  by_cases hword : isWord n = true
  · rw [flag, if_pos hword, flagOfInt_eq_ok_iff]
  · rw [flag, if_neg hword]
    apply iff_of_false (by simp [refuse])
    rintro rfl
    cases b <;> exact hword (by decide)

theorem flag_float_eq_ok_iff {x : Float} {b : Bool} :
    flag (.float x) = .ok b ↔ (Number.float x).position? = (Number.flag b).position? := by
  have hinteger : flag (.float x) = .ok b ↔
      integerOfFloat x = .ok (if b = true then 1 else 0) := by
    simp only [flag]
    cases integerOfFloat x with
    | error cause => simp [refuse]
    | ok n => simp [flagOfInt_eq_ok_iff]
  rw [hinteger, integerOfFloat_eq_ok_iff]
  have hsmall : (if b = true then 1 else 0 : Int).natAbs < Nat.pow 2 63 := by
    cases b <;> decide
  exact and_iff_right hsmall

theorem flag_eq_ok_iff {value : Json} {b : Bool} : flag value = .ok b ↔ value.SpellsFlag b := by
  cases value with
  | bool given =>
      constructor
      · intro hread
        obtain rfl := Except.ok.inj hread
        exact .bool given
      · rintro ⟨⟩
        rfl
  | int n =>
      rw [flag_int_eq_ok_iff]
      constructor
      · rintro rfl
        cases b with
        | false => exact .zero
        | true => exact .one
      · intro hspells
        cases hspells with
        | zero => rfl
        | one => rfl
  | float x =>
      rw [flag_float_eq_ok_iff]
      constructor
      · exact .float
      · rintro ⟨⟩
        assumption
  | str s =>
      rw [← flagOfText?_eq_some_iff]
      simp only [flag]
      cases flagOfText? s with
      | none => simp [refuse]
      | some given => simp
  | null | arr | obj | foreign => exact iff_of_false (by simp [flag, refuse]) nofun

end Reading

end IssueSearch
