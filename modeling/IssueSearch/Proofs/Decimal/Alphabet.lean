import IssueSearch.Decimal.Shortest
/-!
The characters that the text of a double is made of. A text of a finite double holds a point or an
exponent, so that it is never the text of an integer, and both layouts keep the same doubles apart.
-/
namespace IssueSearch.Decimal

/-- The characters of integers. -/
def isIntegral (c : Char) : Bool := c.isDigit || c = '-'

/-- The characters of finite doubles. -/
def isDecimal (c : Char) : Bool := c.isDigit || c = '-' || c = '+' || c = '.' || c = 'e'

theorem isDecimal_of_isDigit {c : Char} (hc : c.isDigit = true) : isDecimal c = true := by
  simp [isDecimal, hc]

theorem isDigit_of_mem_zeros {n : Nat} {c : Char} (hmem : c ∈ zeros n) : c.isDigit = true := by
  rw [List.eq_of_mem_replicate hmem]
  rfl

theorem isDecimal_of_mem_positional {digits : List Char} {lead : Int}
    (hdigits : ∀ c ∈ digits, c.isDigit = true) {c : Char} (hmem : c ∈ positional digits lead) :
    isDecimal c = true := by
  unfold positional at hmem
  split at hmem
  · rcases List.mem_cons.1 hmem with rfl | hmem
    · rfl
    rcases List.mem_cons.1 hmem with rfl | hmem
    · rfl
    rcases List.mem_append.1 hmem with hzero | hdigit
    · exact isDecimal_of_isDigit (isDigit_of_mem_zeros hzero)
    · exact isDecimal_of_isDigit (hdigits c hdigit)
  · have hpadded : ∀ c ∈ digits ++ zeros (lead.toNat + 1 - digits.length), isDecimal c = true := by
      intro c hc
      rcases List.mem_append.1 hc with hdigit | hzero
      · exact isDecimal_of_isDigit (hdigits c hdigit)
      · exact isDecimal_of_isDigit (isDigit_of_mem_zeros hzero)
    rcases List.mem_append.1 hmem with hfront | hmem
    · exact hpadded c (List.mem_of_mem_take hfront)
    rcases List.mem_cons.1 hmem with rfl | hback
    · rfl
    · exact hpadded c (List.mem_of_mem_drop hback)

theorem point_mem_positional (digits : List Char) (lead : Int) : '.' ∈ positional digits lead := by
  unfold positional
  split <;> simp

theorem isDecimal_of_mem_scientific {layout : Layout} {digits : List Char} {first : Int}
    (hdigits : ∀ c ∈ digits, c.isDigit = true) {c : Char}
    (hmem : c ∈ scientific layout digits first) : isDecimal c = true := by
  unfold scientific at hmem
  rcases List.mem_append.1 hmem with hfront | hmem
  · split at hfront
    · cases hfront
    · exact isDecimal_of_isDigit (hdigits c hfront)
    · rcases List.mem_cons.1 hfront with rfl | hfront
      · exact isDecimal_of_isDigit (hdigits _ List.mem_cons_self)
      rcases List.mem_cons.1 hfront with rfl | hrest
      · rfl
      · exact isDecimal_of_isDigit (hdigits c (List.mem_cons_of_mem _ hrest))
  rcases List.mem_cons.1 hmem with rfl | hmem
  · rfl
  rcases List.mem_cons.1 hmem with rfl | hmem
  · split <;> rfl
  rcases List.mem_append.1 hmem with hzero | hsize
  · exact isDecimal_of_isDigit (isDigit_of_mem_zeros hzero)
  · exact isDecimal_of_isDigit (Nat.isDigit_of_mem_toDigits (by decide) (by decide) hsize)

theorem exponent_mem_scientific (layout : Layout) (digits : List Char) (first : Int) :
    'e' ∈ scientific layout digits first := by
  simp [scientific]

/-- A finite double has digits, signs, a point or an exponent in its text, and a point or an
exponent for sure. -/
theorem chars_of_finite {layout : Layout} {x : Float} {negative : Bool} {significand : Nat}
    {exponent : Int} (hx : Binary.ofFloat x = .finite negative significand exponent) :
    (∀ c ∈ chars layout x, isDecimal c = true) ∧
      ('.' ∈ chars layout x ∨ 'e' ∈ chars layout x) := by
  have hsigned : ∀ text : List Char, (∀ c ∈ text, isDecimal c = true) →
      ('.' ∈ text ∨ 'e' ∈ text) →
      (∀ c ∈ (if negative then '-' :: text else text), isDecimal c = true) ∧
        ('.' ∈ (if negative then '-' :: text else text) ∨
          'e' ∈ (if negative then '-' :: text else text)) := by
    intro text hall hmark
    cases negative with
    | false => exact ⟨hall, hmark⟩
    | true =>
        refine ⟨fun c hc => ?_, hmark.imp (List.mem_cons_of_mem _) (List.mem_cons_of_mem _)⟩
        rcases List.mem_cons.1 hc with rfl | hc
        · rfl
        · exact hall c hc
  have hdigits (n : Nat) : ∀ c ∈ Nat.toDigits 10 n, c.isDigit = true :=
    fun c hc => Nat.isDigit_of_mem_toDigits (by decide) (by decide) hc
  cases significand with
  | zero =>
      simp only [chars, hx]
      exact hsigned ['0', '.', '0'] (List.all_eq_true.1 (by decide)) (by decide)
  | succ k =>
      simp only [chars, hx]
      refine hsigned _ ?_ ?_
      · intro c hc
        split at hc
        · exact isDecimal_of_mem_positional (hdigits _) hc
        · exact isDecimal_of_mem_scientific (hdigits _) hc
      · split
        · exact Or.inl (point_mem_positional _ _)
        · exact Or.inr (exponent_mem_scientific _ _ _)

/-- Both layouts write a finite double alike. -/
theorem chars_spelledOut_of_finite {x : Float} {negative : Bool} {significand : Nat}
    {exponent : Int} (hx : Binary.ofFloat x = .finite negative significand exponent) :
    chars spelledOut x = chars plain x := by
  cases significand with
  | zero => simp only [chars, hx]
  | succ k =>
      simp only [chars, hx]
      rfl

/-- The characters of doubles, those that are no finite numbers included. -/
def isNumeric (c : Char) : Bool := isDecimal c || "NaInfity".toList.contains c

theorem isNumeric_of_mem_chars {x : Float} {c : Char} (hmem : c ∈ chars spelledOut x) :
    isNumeric c = true := by
  cases hx : Binary.ofFloat x with
  | nan =>
      simp only [chars, hx] at hmem
      exact List.all_eq_true.1 (by decide) c hmem
  | infinite negative =>
      simp only [chars, hx] at hmem
      cases negative with
      | false => exact List.all_eq_true.1 (by decide) c hmem
      | true => exact List.all_eq_true.1 (by decide) c hmem
  | finite negative significand exponent =>
      rw [isNumeric, (chars_of_finite hx).1 c hmem, Bool.true_or]

/-- No double has the text of an integer. -/
theorem exists_mem_chars_not_integral (x : Float) :
    ∃ c ∈ chars spelledOut x, isIntegral c = false := by
  cases hx : Binary.ofFloat x with
  | nan =>
      simp only [chars, hx]
      exact ⟨'N', by decide, rfl⟩
  | infinite negative =>
      simp only [chars, hx]
      exact ⟨'n', by cases negative <;> decide, rfl⟩
  | finite negative significand exponent =>
      rcases (chars_of_finite hx).2 with hpoint | hexponent
      · exact ⟨'.', hpoint, rfl⟩
      · exact ⟨'e', hexponent, rfl⟩

/-- The plain text of a double, made of the one that is spelled out. -/
def shorten (text : List Char) : List Char :=
  if text.all isDecimal then text
  else if text = "NaN".toList then "nan".toList
  else if text.head? = some '-' then "-inf".toList
  else "inf".toList

theorem chars_plain_eq (x : Float) : chars plain x = shorten (chars spelledOut x) := by
  cases hx : Binary.ofFloat x with
  | nan =>
      simp only [chars, hx]
      decide
  | infinite negative =>
      simp only [chars, hx]
      cases negative with
      | false => decide
      | true => decide
  | finite negative significand exponent =>
      have hall : (chars spelledOut x).all isDecimal = true :=
        List.all_eq_true.2 (chars_of_finite hx).1
      rw [shorten, if_pos hall, chars_spelledOut_of_finite hx]

/-- Doubles that are spelled out alike have one plain text. -/
theorem text_eq_of_spelledOut {x y : Float} (heq : chars spelledOut x = chars spelledOut y) :
    text x = text y := by
  rw [text, text, chars_plain_eq, chars_plain_eq, heq]

/-- The spelled out text of a double, made of the plain one. -/
def lengthen (text : List Char) : List Char :=
  if text.all isDecimal then text
  else if text = "nan".toList then "NaN".toList
  else if text.head? = some '-' then "-Infinity".toList
  else "Infinity".toList

theorem chars_spelledOut_eq (x : Float) : chars spelledOut x = lengthen (chars plain x) := by
  cases hx : Binary.ofFloat x with
  | nan =>
      simp only [chars, hx]
      decide
  | infinite negative =>
      simp only [chars, hx]
      cases negative with
      | false => decide
      | true => decide
  | finite negative significand exponent =>
      have hall : (chars plain x).all isDecimal = true :=
        List.all_eq_true.2 (chars_of_finite hx).1
      rw [lengthen, if_pos hall, chars_spelledOut_of_finite hx]

/-- Doubles with one plain text are spelled out alike. -/
theorem spelledOut_eq_of_text {x y : Float} (heq : text x = text y) :
    chars spelledOut x = chars spelledOut y := by
  rw [text, text, String.ofList_inj] at heq
  rw [chars_spelledOut_eq, chars_spelledOut_eq, heq]

end IssueSearch.Decimal
