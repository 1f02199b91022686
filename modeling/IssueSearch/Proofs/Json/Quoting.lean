import IssueSearch.Json.Reading
import IssueSearch.Json.Text
/-!
JSON strings read back. Every character is recovered from its escape by the reader of escapes, so
the text of a string tells where it ends and which string it is.
-/
namespace IssueSearch.Json

theorem hexValue?_digitChar : ∀ d < 16, hexValue? (Nat.digitChar d) = some d := by decide

theorem unit?_hexDigits {n : Nat} (hn : n < 0x10000) (rest : List Char) :
    unit? (Text.hexDigits 4 n ++ rest) = some (n, rest) := by
  have hdigits : Text.hexDigits 4 n =
      [Nat.digitChar (n / 4096 % 16), Nat.digitChar (n / 256 % 16), Nat.digitChar (n / 16 % 16),
        Nat.digitChar (n / 1 % 16)] := rfl
  have hvalue (m : Nat) : hexValue? (Nat.digitChar (m % 16)) = some (m % 16) :=
    hexValue?_digitChar _ (Nat.mod_lt m (by decide))
  have hsum : ((n / 4096 % 16 * 16 + n / 256 % 16) * 16 + n / 16 % 16) * 16 + n / 1 % 16 = n := by
    omega
  rw [hdigits]
  simp only [List.cons_append, List.nil_append, unit?, hvalue]
  simp only [Option.bind_eq_bind, Option.bind_some, hsum]
  rfl

/-- A character at the beginning of the inside of a string, and what is behind it. -/
def character? : List Char → Option (Char × List Char)
  | '\\' :: rest => escaped? rest
  | c :: rest => some (c, rest)
  | [] => none

theorem joinUnits_of_toNat {c : Char} (hc : c.toNat < 0x10000) (rest : List Char) :
    joinUnits c.toNat rest = (c, rest) := by
  have hvalid : c.toNat < 0xD800 ∨ 0xDFFF < c.toNat := by
    rcases c.valid with hlow | ⟨hhigh, -⟩
    · exact Or.inl hlow
    · exact Or.inr hhigh
  rw [joinUnits, if_neg (by omega), if_neg (by omega), Char.ofNat_toNat]

theorem joinUnits_pair {c : Char} (hc : 0x10000 ≤ c.toNat) (rest : List Char) :
    joinUnits (0xD800 + (c.toNat - 0x10000) / 0x400)
      (unitEscape (0xDC00 + (c.toNat - 0x10000) % 0x400) ++ rest) = (c, rest) := by
  have hbound : c.toNat < 0x110000 := by
    rcases c.valid with hlow | ⟨-, hhigh⟩
    · exact Nat.lt_trans hlow (by decide)
    · exact hhigh
  have htrailing : trailing? (unitEscape (0xDC00 + (c.toNat - 0x10000) % 0x400) ++ rest) =
      some (0xDC00 + (c.toNat - 0x10000) % 0x400, rest) := by
    simp only [unitEscape, List.cons_append, trailing?]
    rw [unit?_hexDigits (by omega)]
    simp only [Option.filter_some, Bool.and_eq_true, decide_eq_true_eq]
    rw [if_pos (by omega)]
  have hvalue : 0x10000 + (0xD800 + (c.toNat - 0x10000) / 0x400 - 0xD800) * 0x400 +
      (0xDC00 + (c.toNat - 0x10000) % 0x400 - 0xDC00) = c.toNat := by
    omega
  rw [joinUnits, if_pos (by omega), htrailing]
  simp only [hvalue, Char.ofNat_toNat]

/-- Reading undoes writing, one character at a time. -/
theorem character?_escapeChar (c : Char) (rest : List Char) :
    character? (escapeChar c ++ rest) = some (c, rest) := by
  unfold escapeChar
  split
  · subst_vars; rfl
  split
  · subst_vars; rfl
  split
  · subst_vars; rfl
  split
  · subst_vars; rfl
  split
  · subst_vars; rfl
  split
  · subst_vars; rfl
  split
  · subst_vars; rfl
  rename_i hslash _ _ _ _ _
  split
  · simp only [List.cons_append, List.nil_append]
    rw [character?.eq_def]
    split <;> simp_all
  split
  · rename_i hbasic
    simp only [unitEscape, List.cons_append, character?, escaped?]
    rw [unit?_hexDigits hbasic]
    simp only [Option.map_some, joinUnits_of_toNat hbasic]
  · rename_i hbasic
    have hastral : 0x10000 ≤ c.toNat := Nat.le_of_not_lt hbasic
    have hbound : c.toNat < 0x110000 := by
      rcases c.valid with hlow | ⟨-, hhigh⟩
      · exact Nat.lt_trans hlow (by decide)
      · exact hhigh
    rw [List.append_assoc, unitEscape]
    simp only [List.cons_append, character?, escaped?]
    rw [unit?_hexDigits (by omega)]
    simp only [Option.map_some, joinUnits_pair hastral]

theorem escapeChar_append_inj {c d : Char} {rest rest' : List Char}
    (heq : escapeChar c ++ rest = escapeChar d ++ rest') : c = d ∧ rest = rest' := by
  have hread := character?_escapeChar c rest
  rw [heq, character?_escapeChar] at hread
  simp only [Option.some.injEq, Prod.mk.injEq] at hread
  exact ⟨hread.1.symm, hread.2.symm⟩

theorem escapeChar_append_ne_quote (c : Char) (rest rest' : List Char) :
    escapeChar c ++ rest ≠ '\x22' :: rest' := by
  intro heq
  have hread := character?_escapeChar c rest
  rw [heq] at hread
  obtain rfl : '\x22' = c := (Prod.mk.inj (Option.some.inj hread)).1
  cases heq

theorem flatMap_escapeChar_append_inj {cs ds : List Char} {rest rest' : List Char}
    (heq : cs.flatMap escapeChar ++ '\x22' :: rest = ds.flatMap escapeChar ++ '\x22' :: rest') :
    cs = ds ∧ rest = rest' := by
  induction cs generalizing ds with
  | nil =>
      cases ds with
      | nil => exact ⟨rfl, List.tail_eq_of_cons_eq heq⟩
      | cons d ds =>
          rw [List.flatMap_cons, List.append_assoc] at heq
          exact absurd heq.symm (escapeChar_append_ne_quote d _ _)
  | cons c cs ih =>
      cases ds with
      | nil =>
          rw [List.flatMap_cons, List.append_assoc] at heq
          exact absurd heq (escapeChar_append_ne_quote c _ _)
      | cons d ds =>
          rw [List.flatMap_cons, List.flatMap_cons, List.append_assoc, List.append_assoc] at heq
          obtain ⟨rfl, htail⟩ := escapeChar_append_inj heq
          obtain ⟨rfl, hrest⟩ := ih htail
          exact ⟨rfl, hrest⟩

/-- The text of a string ends where its closing quote stands, and gives the string back. -/
theorem stringChars_append_inj {s t : String} {rest rest' : List Char}
    (heq : stringChars s ++ rest = stringChars t ++ rest') : s = t ∧ rest = rest' := by
  simp only [stringChars, List.cons_append, List.append_assoc, List.nil_append] at heq
  obtain ⟨hchars, hrest⟩ := flatMap_escapeChar_append_inj (List.tail_eq_of_cons_eq heq)
  exact ⟨String.toList_inj.1 hchars, hrest⟩

end IssueSearch.Json
