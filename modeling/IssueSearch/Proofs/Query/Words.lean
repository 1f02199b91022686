import IssueSearch.Query.Grammar
/-!
Query texts taken apart at their blanks. A blank between two quotes separates nothing, and a quote
with a backslash in front of it closes nothing; a quote that is never closed opens nothing. A text
that holds no other blanks is one word wherever it stands between blanks.
-/
namespace IssueSearch.Query

/-- Whether a quote comes that closes. The character in front may be a backslash. -/
def closes (escaped : Bool) : List Char → Bool
  | [] => false
  | c :: rest => (c == '\x22' && !escaped) || closes (c == '\\') rest

/-- Where a reader stands: outside quotes, or inside, behind a backslash or not. -/
inductive Place where
  | bare
  | quoted (escaped : Bool)
deriving DecidableEq

/-- Where a reader stands behind a character. -/
def Place.next (rest : List Char) : Place → Char → Place
  | bare, c => if c = '\x22' ∧ closes false rest = true then quoted false else bare
  | quoted escaped, c => if c = '\x22' ∧ escaped = false then bare else quoted (c == '\\')

/-- Words with a character in front of the first. -/
def prepend (c : Char) : List (List Char) → List (List Char)
  | [] => [[c]]
  | word :: rest => (c :: word) :: rest

/-- The words of a text: what blanks outside quotes separate. -/
def split : Place → List Char → List (List Char)
  | _, [] => [[]]
  | place, c :: rest =>
      if place = .bare ∧ Text.isBlank c = true then [] :: split .bare rest
      else prepend c (split (place.next rest c) rest)

/-- The words of a query text. -/
def words (text : String) : List String :=
  if text = "" then [] else (split .bare text.toList).map String.ofList

/-- A text that is one word: characters other than blanks and quotes, and whole quoted texts. -/
inductive Whole : List Char → Prop
  | nil : Whole []
  | char {c : Char} {rest : List Char} (unblank : Text.isBlank c = false) (unquoted : c ≠ '\x22')
      (whole : Whole rest) : Whole (c :: rest)
  | quoted {body rest : List Char} (unclosed : closes false body = false)
      (closed : closes false (body ++ ['\x22']) = true) (whole : Whole rest) :
      Whole ('\x22' :: (body ++ '\x22' :: rest))

theorem Whole.append {text text' : List Char} (hwhole : Whole text) (hwhole' : Whole text') :
    Whole (text ++ text') := by
  induction hwhole with
  | nil => exact hwhole'
  | char unblank unquoted whole ih => exact .char unblank unquoted ih
  | quoted unclosed closed whole ih =>
      rw [List.cons_append, List.append_assoc, List.cons_append]
      exact .quoted unclosed closed ih

theorem Whole.of_bare {text : List Char}
    (hbare : ∀ c ∈ text, Text.isBlank c = false ∧ c ≠ '\x22') : Whole text := by
  induction text with
  | nil => exact .nil
  | cons c rest ih =>
      obtain ⟨hunblank, hunquoted⟩ := hbare c List.mem_cons_self
      exact .char hunblank hunquoted (ih fun d hd => hbare d (List.mem_cons_of_mem _ hd))

/-- Whole texts with a whole text between. -/
theorem Whole.intercalate {separator : List Char} (hseparator : Whole separator)
    {texts : List (List Char)} (hwhole : ∀ text ∈ texts, Whole text) :
    Whole (separator.intercalate texts) := by
  induction texts with
  | nil => exact .nil
  | cons text texts ih =>
      have hrest := ih fun other hother => hwhole other (List.mem_cons_of_mem _ hother)
      have hown := hwhole text List.mem_cons_self
      cases texts with
      | nil => rwa [List.intercalate_singleton]
      | cons next texts =>
          rw [List.intercalate_cons_cons]
          exact (hown.append hseparator).append hrest

theorem closes_append {body : List Char} {escaped : Bool} (rest : List Char)
    (hclosed : closes escaped (body ++ ['\x22']) = true) :
    closes escaped (body ++ '\x22' :: rest) = true := by
  induction body generalizing escaped with
  | nil =>
      simp only [List.nil_append, closes, Bool.or_eq_true] at hclosed ⊢
      exact .inl (by simpa using hclosed)
  | cons c body ih =>
      simp only [List.cons_append, closes, Bool.or_eq_true] at hclosed ⊢
      exact hclosed.imp_right ih

/-- A reader inside quotes comes out of them at the quote that closes. -/
theorem split_quoted {body : List Char} {escaped : Bool} (rest : List Char)
    (hunclosed : closes escaped body = false)
    (hclosed : closes escaped (body ++ ['\x22']) = true) :
    split (.quoted escaped) (body ++ '\x22' :: rest) =
      body.foldr prepend (prepend '\x22' (split .bare rest)) := by
  induction body generalizing escaped with
  | nil =>
      have hescaped : escaped = false := by simpa [closes] using hclosed
      simp [split, Place.next, hescaped]
  | cons c body ih =>
      simp only [closes, Bool.or_eq_false_iff] at hunclosed
      have hgoes : ¬ (c = '\x22' ∧ escaped = false) := by
        rintro ⟨rfl, rfl⟩
        simp at hunclosed
      have hclosed' : closes (c == '\\') (body ++ ['\x22']) = true := by
        simpa [closes, hunclosed.1] using hclosed
      simp only [List.cons_append, split, Place.next, if_neg hgoes, List.foldr_cons,
        ih hunclosed.2 hclosed']
      simp

/-- A whole text is read into the first word of what follows. -/
theorem Whole.split_append {text : List Char} (hwhole : Whole text) (rest : List Char) :
    split .bare (text ++ rest) = text.foldr prepend (split .bare rest) := by
  induction hwhole with
  | nil => rfl
  | char unblank unquoted whole ih =>
      simp only [List.cons_append, split, Place.next, unblank, unquoted, ih, List.foldr_cons,
        false_and, if_false, Bool.false_eq_true, and_false]
  | @quoted body after unclosed closed whole ih =>
      have hopens : closes false (body ++ '\x22' :: (after ++ rest)) = true :=
        closes_append _ closed
      have hblank : Text.isBlank '\x22' = false := by decide
      have htext : '\x22' :: (body ++ '\x22' :: after) ++ rest =
          '\x22' :: (body ++ '\x22' :: (after ++ rest)) := by simp
      rw [htext, split, hblank, if_neg (by simp), Place.next, if_pos ⟨rfl, hopens⟩,
        split_quoted _ unclosed closed, ih]
      simp

theorem foldr_prepend (text word : List Char) (rest : List (List Char)) :
    text.foldr prepend (word :: rest) = (text ++ word) :: rest := by
  induction text with
  | nil => rfl
  | cons c text ih => rw [List.foldr_cons, ih, prepend, List.cons_append]

/-- A whole text is one word. -/
theorem Whole.split_eq {text : List Char} (hwhole : Whole text) : split .bare text = [text] := by
  have happend := hwhole.split_append []
  rwa [List.append_nil, split, foldr_prepend, List.append_nil] at happend

/-- A whole text in front of a blank is one word, and the rest is read for itself. -/
theorem Whole.split_blank {text : List Char} (hwhole : Whole text) (rest : List Char) :
    split .bare (text ++ ' ' :: rest) = text :: split .bare rest := by
  have hblank : split .bare (' ' :: rest) = [] :: split .bare rest := by
    rw [split, if_pos ⟨rfl, by decide⟩]
  rw [hwhole.split_append, hblank, foldr_prepend, List.append_nil]

/-- Whole texts with a space between each are read back, whatever is written behind them. -/
theorem split_intercalate {texts : List (List Char)} (hwhole : ∀ text ∈ texts, Whole text)
    {rest : List (List Char)} (hrest : rest ≠ []) :
    split .bare ([' '].intercalate (texts ++ rest)) =
      texts ++ split .bare ([' '].intercalate rest) := by
  induction texts with
  | nil => rfl
  | cons text texts ih =>
      have hothers := ih fun other hother => hwhole other (List.mem_cons_of_mem _ hother)
      have hne : texts ++ rest ≠ [] := by simp [hrest]
      rw [List.cons_append, List.intercalate_cons_of_ne_nil hne, List.append_assoc,
        List.singleton_append, (hwhole text List.mem_cons_self).split_blank, hothers,
        List.cons_append]

end IssueSearch.Query
