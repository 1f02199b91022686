import IssueSearch.Json.Text
import IssueSearch.Proofs.Decimal.Alphabet
/-!
Numbers and words in JSON text. They are made of token characters, which nothing that stands behind
a value begins with, and integers are read off their digits.
-/
namespace IssueSearch.Json

/-- The characters of numbers and words. -/
def isTokenChar (c : Char) : Bool := c.isAlphanum || c = '-' || c = '+' || c = '.'

/-- What stands behind a value: nothing, or a text that no number or word goes on with. -/
def Ends (rest : List Char) : Prop := ∀ c ∈ rest.head?, isTokenChar c = false

theorem isTokenChar_of_isNumeric {c : Char} (hc : Decimal.isNumeric c = true) :
    isTokenChar c = true := by
  simp only [Decimal.isNumeric, Decimal.isDecimal, Bool.or_eq_true, List.contains_iff_mem] at hc
  rcases hc with ((((hdigit | hc) | hc) | hc) | hc) | hword
  · simp [isTokenChar, Char.isAlphanum, hdigit]
  · simp [isTokenChar, hc]
  · simp [isTokenChar, hc]
  · simp [isTokenChar, hc]
  · rw [decide_eq_true_eq] at hc
    subst hc
    rfl
  · exact List.all_eq_true.1 (by decide) c hword

/-- Texts of token characters are told from what stands behind them. -/
theorem token_append_inj {cs ds rest rest' : List Char} (hcs : ∀ c ∈ cs, isTokenChar c = true)
    (hds : ∀ d ∈ ds, isTokenChar d = true) (hrest : Ends rest) (hrest' : Ends rest')
    (heq : cs ++ rest = ds ++ rest') : cs = ds ∧ rest = rest' := by
  induction cs generalizing ds with
  | nil =>
      cases ds with
      | nil => exact ⟨rfl, heq⟩
      | cons d ds =>
          have hno : isTokenChar d = false := hrest d (by rw [← List.nil_append rest, heq]; rfl)
          rw [hds d List.mem_cons_self] at hno
          cases hno
  | cons c cs ih =>
      cases ds with
      | nil =>
          have hno : isTokenChar c = false :=
            hrest' c (by rw [← List.nil_append rest', ← heq]; rfl)
          rw [hcs c List.mem_cons_self] at hno
          cases hno
      | cons d ds =>
          obtain ⟨rfl, htail⟩ := List.cons.inj heq
          obtain ⟨rfl, hends⟩ := ih (fun c hc => hcs c (List.mem_cons_of_mem _ hc))
            (fun d hd => hds d (List.mem_cons_of_mem _ hd)) htail
          exact ⟨rfl, hends⟩

theorem toList_toString_int (n : Int) : (toString n).toList =
    if 0 ≤ n then Nat.toDigits 10 n.toNat else '-' :: Nat.toDigits 10 (-n).toNat := by
  rw [Int.toString_eq_repr, Int.repr_eq_if]
  split
  · rw [Nat.toList_repr]
  · rw [String.toList_append, Nat.toList_repr]
    rfl

theorem isIntegral_of_mem_int {n : Int} {c : Char} (hmem : c ∈ (toString n).toList) :
    Decimal.isIntegral c = true := by
  have hdigits (m : Nat) : ∀ c ∈ Nat.toDigits 10 m, Decimal.isIntegral c = true := by
    intro c hc
    have hdigit := Nat.isDigit_of_mem_toDigits (by decide) (by decide) hc
    rw [Decimal.isIntegral, hdigit, Bool.true_or]
  rw [toList_toString_int] at hmem
  split at hmem
  · exact hdigits _ c hmem
  · rcases List.mem_cons.1 hmem with rfl | hmem
    · rfl
    · exact hdigits _ c hmem

theorem toString_int_inj {m n : Int} (heq : (toString m).toList = (toString n).toList) :
    m = n := by
  have hread (k : Nat) : Nat.ofDigitChars 10 (Nat.toDigits 10 k) 0 = k :=
    Nat.ofDigitChars_ten_toDigits
  have hsign (k l : Nat) : Nat.toDigits 10 k ≠ '-' :: Nat.toDigits 10 l := by
    intro hdigits
    have hmem : '-' ∈ Nat.toDigits 10 k := by
      rw [hdigits]
      exact List.mem_cons_self
    exact absurd (Nat.isDigit_of_mem_toDigits (by decide) (by decide) hmem) (by decide)
  rw [toList_toString_int, toList_toString_int] at heq
  split at heq <;> split at heq
  · have hnat := congrArg (Nat.ofDigitChars 10 · 0) heq
    simp only [hread] at hnat
    omega
  · exact absurd heq (hsign _ _)
  · exact absurd heq.symm (hsign _ _)
  · have hnat := congrArg (Nat.ofDigitChars 10 · 0) (List.tail_eq_of_cons_eq heq)
    simp only [hread] at hnat
    omega

end IssueSearch.Json
