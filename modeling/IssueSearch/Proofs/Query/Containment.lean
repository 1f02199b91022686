import IssueSearch.Proofs.Query.Clauses
import IssueSearch.Proofs.Query.Words
/-!
Queries word by word. The words of a query are those of its scope, of its clauses and of its text
search, with a space between each. A value is one word, so it can neither add a clause nor split or
swallow one: an ordinary value with blanks is put between quotes, and an exempt value with blanks is
refused, or left out of its list with a warning. What is written as it comes, the scope and the
values of unquoted fields, is one word if it holds neither blanks nor quotes.
-/
namespace IssueSearch

/-- A text without blanks and quotes. -/
def IsBare (text : String) : Prop := ∀ c ∈ text.toList, Text.isBlank c = false ∧ c ≠ '\x22'

instance (text : String) : Decidable (IsBare text) :=
  List.decidableBAll (fun c => Text.isBlank c = false ∧ c ≠ '\x22') text.toList

theorem IsBare.whole {text : String} (hbare : IsBare text) : Query.Whole text.toList :=
  .of_bare hbare

theorem forall_mem_intercalate {α : Type} {p : α → Prop} {separator : List α}
    (hseparator : ∀ x ∈ separator, p x) {rows : List (List α)}
    (hrows : ∀ row ∈ rows, ∀ x ∈ row, p x) : ∀ x ∈ separator.intercalate rows, p x := by
  induction rows with
  | nil => simp
  | cons row rows ih =>
      have hrest := ih fun other hother => hrows other (List.mem_cons_of_mem _ hother)
      have hrow := hrows row List.mem_cons_self
      cases rows with
      | nil => simpa using hrow
      | cons next rows =>
          intro x hx
          rw [List.intercalate_cons_cons, List.mem_append, List.mem_append] at hx
          rcases hx with (hx | hx) | hx
          · exact hrow x hx
          · exact hseparator x hx
          · exact hrest x hx

namespace Grammar

variable {g : Grammar}

/-- A field in front of its value. -/
def label (negated : Bool) (field : String) : String := mark negated ++ field ++ ":"

/-- The words of a list that is written value by value. -/
def listWords (negated : Bool) (field : String) (texts : List String) : List String :=
  let rows := texts.map fun text => [label negated field, text]
  if negated then rows.flatten else ["or"].intercalate rows

/-- The words that a filter is written as. -/
inductive Words (g : Grammar) : Filter → List String → Prop
  | compare {field : String} {negate : Bool} {operator : Comparison} {value : Scalar}
      {text : String} (written : g.write? field (isBound operator) value.text = some text) :
      Words g ⟨field, negate, .compare operator (some value)⟩
        [label negate field, comparisonText operator text]
  | list {field : String} {negate : Bool} {operator : Membership} {first : Scalar}
      {rest : List Scalar} {texts : List String} (ordinary : g.isExempt field = false)
      (written : List.Forall₂ (fun value text => g.write? field false value.text = some text)
        (first :: rest) texts) :
      Words g ⟨field, negate, .member operator first rest⟩
        (listWords (negate != (operator == .notIn)) field texts)
  /-- The list of an exempt field, without the values that hold blanks. -/
  | kept {field : String} {negate : Bool} {operator : Membership} {first : Scalar}
      {rest : List Scalar} {texts : List String} (exempt : g.isExempt field = true)
      (unblank : texts = ((first :: rest).map Scalar.text).filter fun text => !Text.hasBlank text)
      (some : texts ≠ []) :
      Words g ⟨field, negate, .member operator first rest⟩
        [label (negate != (operator == .notIn)) field, ",".intercalate texts]
  | between {field : String} {negate : Bool} {low high : Scalar} {lowText highText : String}
      (writtenLow : g.write? field true low.text = some lowText)
      (writtenHigh : g.write? field true high.text = some highText) :
      Words g ⟨field, negate, .between low high⟩
        [label negate field, lowText ++ ".." ++ highText]
  | presence {field : String} {negate : Bool} {operator : Presence} :
      Words g ⟨field, negate, .presence operator⟩
        ["has:", mark ((operator == .isEmpty) != negate) ++ field]

theorem atom_eq (negated : Bool) (field text : String) :
    atom negated field text = " ".intercalate [label negated field, text] := by
  have hcolon : ": " = ":" ++ " " := rfl
  rw [atom, label, String.intercalate_cons_cons, String.intercalate_singleton, hcolon]
  simp only [String.append_assoc]

/-- Rows of words, written with a space between the words and a joiner between the rows. -/
theorem intercalate_rows {rows : List (List String)} (hne : ∀ row ∈ rows, row ≠ []) :
    " ".intercalate (rows.map " ".intercalate) = " ".intercalate rows.flatten := by
  induction rows with
  | nil => rfl
  | cons row rows ih =>
      have hrest := ih fun other hother => hne other (List.mem_cons_of_mem _ hother)
      have hrow := hne row List.mem_cons_self
      cases rows with
      | nil => simp
      | cons next rows =>
          have hnext : (next :: rows).flatten ≠ [] := by
            simp [hne next (List.mem_cons_of_mem _ List.mem_cons_self)]
          rw [List.map_cons, String.intercalate_cons_of_ne_nil (by simp), hrest,
            ← String.intercalate_append_of_ne_nil hrow hnext]
          rfl

theorem intercalate_rows_or {rows : List (List String)} (hne : ∀ row ∈ rows, row ≠ []) :
    " or ".intercalate (rows.map " ".intercalate) = " ".intercalate (["or"].intercalate rows) := by
  have hor : " or " = " " ++ "or" ++ " " := rfl
  induction rows with
  | nil => rfl
  | cons row rows ih =>
      have hrest := ih fun other hother => hne other (List.mem_cons_of_mem _ hother)
      have hrow := hne row List.mem_cons_self
      cases rows with
      | nil => simp
      | cons next rows =>
          have hnext : ["or"].intercalate (next :: rows) ≠ [] := by
            have hnext := hne next (List.mem_cons_of_mem _ List.mem_cons_self)
            cases rows <;> simp [List.intercalate_cons_cons, hnext]
          rw [List.map_cons, String.intercalate_cons_of_ne_nil (by simp), hrest,
            List.intercalate_cons_cons, List.append_assoc,
            String.intercalate_append_of_ne_nil hrow (by simp),
            String.intercalate_append_of_ne_nil (by simp) hnext, String.intercalate_singleton, hor]
          simp only [String.append_assoc]

theorem intercalate_atoms (negated : Bool) (field : String) (texts : List String) :
    (if negated = true then " " else " or ").intercalate (texts.map (atom negated field)) =
      " ".intercalate (listWords negated field texts) := by
  have hrows : texts.map (atom negated field) =
      (texts.map fun text => [label negated field, text]).map " ".intercalate := by
    rw [List.map_map]
    exact List.map_congr_left fun text _ => atom_eq negated field text
  have hne : ∀ row ∈ texts.map fun text => [label negated field, text], row ≠ [] := by simp
  rw [hrows, listWords]
  split
  · exact intercalate_rows hne
  · exact intercalate_rows_or hne

/-- The clause that a filter has is written in the words of the filter. -/
theorem Writes.words {f : Filter} {c : Clause} (hwrites : g.Writes f c) :
    ∃ words, g.Words f words ∧ c.text = " ".intercalate words := by
  cases hwrites with
  | compare written => exact ⟨_, .compare written, atom_eq _ _ _⟩
  | @list field negate operator first rest texts ordinary written =>
      exact ⟨_, .list ordinary written, intercalate_atoms _ _ _⟩
  | kept exempt written =>
      simp only [exemptClause] at written
      split at written
      · cases written
      · rename_i hsome
        cases written
        refine ⟨_, .kept exempt rfl ?_, atom_eq _ _ _⟩
        simpa using hsome
  | between writtenLow writtenHigh =>
      exact ⟨_, .between writtenLow writtenHigh, atom_eq _ _ _⟩
  | presence =>
      refine ⟨_, .presence, ?_⟩
      have hhas : "has: " = "has:" ++ " " := rfl
      rw [String.intercalate_cons_cons, String.intercalate_singleton, hhas]
      simp only [String.append_assoc]

theorem Words.writes {f : Filter} {words : List String} (hwords : g.Words f words) :
    ∃ c, g.Writes f c := by
  cases hwords with
  | compare written => exact ⟨_, .compare written⟩
  | list ordinary written => exact ⟨_, .list ordinary written⟩
  | @kept field negate operator first rest texts exempt unblank some =>
      obtain ⟨c, hc⟩ : ∃ c, exemptClause field operator (negate != (operator == .notIn))
          (first :: rest) = .ok c := by
        simp only [exemptClause, ← unblank, List.isEmpty_iff, if_neg some]
        exact ⟨_, rfl⟩
      exact ⟨c, .kept exempt hc⟩
  | between writtenLow writtenHigh => exact ⟨_, .between writtenLow writtenHigh⟩
  | presence => exact ⟨_, .presence⟩

/-- A value that is written as one word: between quotes it does not end in a backslash, and without
quotes around it holds none; a value of an unquoted field holds no blanks either. -/
def Tidy (g : Grammar) (field : String) (rangeBound : Bool) (text : String) : Prop :=
  match g.kind field with
  | .exempt => Text.hasBlank text = false → '\x22' ∉ text.toList
  | .unquoted => IsBare text
  | .ordinary =>
      if text.toList.any (Query.needsQuotes rangeBound) = true then
        text.toList.getLast? ≠ some '\\'
      else '\x22' ∉ text.toList

end Grammar

namespace Query

/-- No quote inside a quoted value closes it. -/
theorem closes_quotedChar (text : List Char) (escaped : Bool) :
    closes escaped (text.flatMap quotedChar) = false := by
  induction text generalizing escaped with
  | nil => rfl
  | cons c rest ih =>
      by_cases hquote : c = '\x22'
      · subst hquote
        simp [quotedChar, closes, ih]
      · simp [quotedChar, hquote, closes, ih]

/-- The quote behind it does, unless a backslash comes last. -/
theorem closes_quotedChar_append {text : List Char} {escaped : Bool}
    (hescaped : text = [] → escaped = false) (hlast : text.getLast? ≠ some '\\') :
    closes escaped (text.flatMap quotedChar ++ ['\x22']) = true := by
  induction text generalizing escaped with
  | nil => simp [closes, hescaped rfl]
  | cons c rest ih =>
      have hrest : rest.getLast? ≠ some '\\' := by
        intro heq
        apply hlast
        rw [List.getLast?_cons, heq, Option.getD_some]
      have hnext : rest = [] → (c == '\\') = false := by
        rintro rfl
        simpa using hlast
      by_cases hquote : c = '\x22'
      · subst hquote
        simp [quotedChar, closes, ih (fun _ => rfl) hrest]
      · simp [quotedChar, hquote, closes, ih hnext hrest]

theorem hasBlank_eq_false {text : String} (hblank : Text.hasBlank text = false) :
    ∀ c ∈ text.toList, Text.isBlank c = false := by
  rw [Text.hasBlank, List.any_eq_false] at hblank
  exact fun c hc => Bool.eq_false_iff.2 (hblank c hc)

/-- A tidy value is written as one word. -/
theorem write?_whole {g : Grammar} {field text written : String} {rangeBound : Bool}
    (htidy : g.Tidy field rangeBound text)
    (hwritten : g.write? field rangeBound text = some written) : Whole written.toList := by
  rw [Grammar.Tidy] at htidy
  rw [Grammar.write?] at hwritten
  cases hkind : g.kind field with
  | exempt =>
      simp only [hkind] at htidy hwritten
      split at hwritten
      · cases hwritten
      · rename_i hblank
        cases hwritten
        have hunblank := Bool.eq_false_iff.2 hblank
        refine .of_bare fun c hc => ⟨hasBlank_eq_false hunblank c hc, ?_⟩
        rintro rfl
        exact htidy hunblank hc
  | unquoted =>
      simp only [hkind] at htidy hwritten
      cases hwritten
      exact .of_bare htidy
  | ordinary =>
      simp only [hkind] at htidy hwritten
      cases hwritten
      rw [String.toList_ofList, writeOrdinary]
      split at htidy
      · rename_i hneeds
        rw [if_pos hneeds]
        exact .quoted (closes_quotedChar _ _) (closes_quotedChar_append (fun _ => rfl) htidy) .nil
      · rename_i hneeds
        rw [if_neg hneeds]
        refine .of_bare fun c hc => ⟨?_, ?_⟩
        · by_contra hblank
          apply hneeds
          rw [List.any_eq_true]
          exact ⟨c, hc, by simp [needsQuotes, hblank]⟩
        · rintro rfl
          exact htidy hc

end Query

/-- Whether the values of a condition are bounds of a range. -/
def Condition.isBound : Condition → Bool
  | .compare operator _ => Grammar.isBound operator
  | .between _ _ => true
  | .member _ _ _ | .presence _ => false

/-- A filter with a bare field and tidy values. -/
structure Filter.Tidy (g : Grammar) (f : Filter) : Prop where
  field : IsBare f.field
  values : ∀ value ∈ f.condition.values, g.Tidy f.field f.condition.isBound value.text

/-- A request with a bare scope and tidy filters. -/
structure Request.Tidy (g : Grammar) (r : Request) : Prop where
  scope : ∀ scope, Query.nonempty? r.scopeId = some scope → IsBare g.scopeField ∧ IsBare scope
  filters : ∀ f ∈ r.filters, f.Tidy g

namespace Grammar

open Query

variable {g : Grammar} {f : Filter} {words : List String}

theorem whole_append {text text' : String} (hwhole : Whole text.toList)
    (hwhole' : Whole text'.toList) : Whole (text ++ text').toList := by
  rw [String.toList_append]
  exact hwhole.append hwhole'

theorem whole_pair {word word' : String} (hwhole : Whole word.toList)
    (hwhole' : Whole word'.toList) : ∀ other ∈ [word, word'], Whole other.toList := by
  intro other hother
  rcases List.mem_pair.1 hother with rfl | rfl
  · exact hwhole
  · exact hwhole'

theorem points_whole : Whole "..".toList := IsBare.whole (by decide)

theorem mark_whole (negated : Bool) : Whole (mark negated).toList := by
  cases negated with
  | true => exact IsBare.whole (by decide)
  | false => exact .nil

theorem label_whole (negated : Bool) {field : String} (hfield : IsBare field) :
    Whole (label negated field).toList :=
  whole_append (whole_append (mark_whole negated) hfield.whole) (IsBare.whole (by decide))

theorem comparisonText_whole (operator : Comparison) {text : String} (hwhole : Whole text.toList) :
    Whole (comparisonText operator text).toList := by
  cases operator with
  | greater => exact whole_append hwhole points_whole
  | less => exact whole_append points_whole hwhole
  | equals | contains | startsWith | endsWith => exact hwhole

theorem listWords_whole (negated : Bool) {field : String} (hfield : IsBare field)
    {texts : List String} (hwhole : ∀ text ∈ texts, Whole text.toList) :
    ∀ word ∈ listWords negated field texts, Whole word.toList := by
  have hrows : ∀ row ∈ texts.map fun text => [label negated field, text],
      ∀ word ∈ row, Whole word.toList := by
    intro row hrow
    obtain ⟨text, htext, rfl⟩ := List.mem_map.1 hrow
    exact whole_pair (label_whole negated hfield) (hwhole text htext)
  rw [listWords]
  split
  · intro word hword
    obtain ⟨row, hrow, hmem⟩ := List.mem_flatten.1 hword
    exact hrows row hrow word hmem
  · refine forall_mem_intercalate ?_ hrows
    rintro word hword
    obtain rfl := List.mem_singleton.1 hword
    exact IsBare.whole (by decide)

/-- Every word of a tidy filter is one word. -/
theorem Words.whole (hwords : g.Words f words) (htidy : f.Tidy g) :
    ∀ word ∈ words, Whole word.toList := by
  obtain ⟨hfield, hvalues⟩ := htidy
  cases hwords with
  | @compare field negate operator value text written =>
      have hvalue := write?_whole (hvalues value (by simp [Condition.values])) written
      exact whole_pair (label_whole negate hfield) (comparisonText_whole operator hvalue)
  | @list field negate operator first rest texts ordinary written =>
      refine listWords_whole _ hfield fun text htext => ?_
      obtain ⟨value, hvalue, hwritten⟩ := exists_mem_of_forall₂ written htext
      exact write?_whole (hvalues value hvalue) hwritten
  | @kept field negate operator first rest texts exempt unblank some =>
      refine whole_pair (label_whole _ hfield) ?_
      rw [String.toList_intercalate]
      refine Whole.intercalate (IsBare.whole (by decide)) fun chars hchars => ?_
      obtain ⟨text, htext, rfl⟩ := List.mem_map.1 hchars
      rw [unblank, List.mem_filter] at htext
      obtain ⟨value, hvalue, rfl⟩ := List.mem_map.1 htext.1
      have hwritten : g.write? field false value.text = .some value.text := by
        have hkind : g.kind field = .exempt := if_pos exempt
        rw [write?, hkind]
        exact if_neg (by simpa using htext.2)
      exact write?_whole (hvalues value hvalue) hwritten
  | @between field negate low high lowText highText writtenLow writtenHigh =>
      have hlow := write?_whole (hvalues low (by simp [Condition.values])) writtenLow
      have hhigh := write?_whole (hvalues high (by simp [Condition.values])) writtenHigh
      exact whole_pair (label_whole negate hfield)
        (whole_append (whole_append hlow points_whole) hhigh)
  | presence =>
      exact whole_pair (IsBare.whole (by decide)) (whole_append (mark_whole _) hfield.whole)

theorem label_ne_empty (negated : Bool) (field : String) : label negated field ≠ "" := by
  intro heq
  have hlast := congrArg (fun text : String => text.toList.getLast?) heq
  simp [label] at hlast

/-- The words of a filter begin with a text that is not empty. -/
theorem Words.head (hwords : g.Words f words) :
    ∃ first rest, words = first :: rest ∧ first ≠ "" := by
  cases hwords with
  | compare written => exact ⟨_, _, rfl, label_ne_empty _ _⟩
  | list ordinary written =>
      obtain ⟨text, texts, -, -, rfl⟩ := List.forall₂_cons_left_iff.1 written
      rw [listWords]
      split
      · exact ⟨_, _, rfl, label_ne_empty _ _⟩
      · cases texts with
        | nil => exact ⟨_, _, rfl, label_ne_empty _ _⟩
        | cons next texts => exact ⟨_, _, rfl, label_ne_empty _ _⟩
  | kept exempt unblank some => exact ⟨_, _, rfl, label_ne_empty _ _⟩
  | between writtenLow writtenHigh => exact ⟨_, _, rfl, label_ne_empty _ _⟩
  | presence => exact ⟨_, _, rfl, by decide⟩

/-- An exempt value with blanks is written nowhere: it can only stand in a list, which is written
without it. -/
theorem Writes.dropped {c : Clause} (hwrites : g.Writes f c)
    (hexempt : g.isExempt f.field = true) {value : Scalar} (hmem : value ∈ f.condition.values)
    (hblank : Text.hasBlank value.text = true) :
    (∃ operator first rest, f.condition = .member operator first rest) ∧
      ∃ d : Dropped, d.field = f.field ∧ value.text ∈ d.dropped ∧ c.dropped = some d := by
  cases hwrites with
  | compare written =>
      obtain rfl := List.mem_singleton.1 hmem
      rw [write?_eq_none_iff.2 ⟨hexempt, hblank⟩] at written
      cases written
  | list ordinary written =>
      rw [hexempt] at ordinary
      cases ordinary
  | @kept field negate operator first rest clause exempt written =>
      refine ⟨⟨operator, first, rest, rfl⟩, ?_⟩
      have hdropped : value.text ∈ ((first :: rest).map Scalar.text).filter Text.hasBlank :=
        List.mem_filter.2 ⟨List.mem_map_of_mem hmem, hblank⟩
      have hsome : (((first :: rest).map Scalar.text).filter Text.hasBlank).isEmpty = false := by
        rw [List.isEmpty_eq_false_iff]
        exact List.ne_nil_of_mem hdropped
      simp only [exemptClause, hsome] at written
      split at written
      · cases written
      · cases written
        exact ⟨_, rfl, hdropped, rfl⟩
  | between writtenLow writtenHigh =>
      rcases List.mem_pair.1 hmem with rfl | rfl
      · rw [write?_eq_none_iff.2 ⟨hexempt, hblank⟩] at writtenLow
        cases writtenLow
      · rw [write?_eq_none_iff.2 ⟨hexempt, hblank⟩] at writtenHigh
        cases writtenHigh
  | presence => cases hmem

end Grammar

namespace Query

variable {g : Grammar} {r : Request}

/-- The words that a scope is written as. -/
def scopeWords (g : Grammar) (r : Request) : List String :=
  (nonempty? r.scopeId).toList.flatMap fun scope => [g.scopeField ++ ":", scope]

/-- A query that says its request word by word. -/
structure WordByWord (g : Grammar) (r : Request) (query : Query) : Prop where
  /-- The text is the words of the scope and of each filter, in order, and the text search, with a
  space between each. Taken apart at the blanks outside quotes it is just these words. -/
  text : ∃ rows, List.Forall₂ g.Words r.filters rows ∧
    query.text = " ".intercalate (scopeWords g r ++ rows.flatten ++ textPart r) ∧
    (r.Tidy g → words query.text =
      scopeWords g r ++ rows.flatten ++ (textPart r).flatMap words)
  /-- An exempt value with blanks was left out of a list, and the query warns of it. -/
  dropped : ∀ f ∈ r.filters, g.isExempt f.field = true → ∀ value ∈ f.condition.values,
    Text.hasBlank value.text = true →
      (∃ operator first rest, f.condition = .member operator first rest) ∧
      ∃ d : Dropped, d.field = f.field ∧ value.text ∈ d.dropped ∧ d.message ∈ query.warnings

theorem scopePart_eq (g : Grammar) (r : Request) :
    scopePart g r = ((nonempty? r.scopeId).toList.map fun scope =>
      [g.scopeField ++ ":", scope]).map " ".intercalate := by
  have hcolon : ": " = ":" ++ " " := rfl
  rw [scopePart, List.map_map]
  refine List.map_congr_left fun scope _ => ?_
  rw [Function.comp_apply, String.intercalate_cons_cons, String.intercalate_singleton, hcolon]
  simp only [String.append_assoc]

theorem rows_of_clauses {filters : List Filter} {cs : List Clause}
    (hclauses : List.Forall₂ (fun f c => g.clause f = .ok c) filters cs) :
    ∃ rows, List.Forall₂ g.Words filters rows ∧
      cs.map Clause.text = rows.map " ".intercalate := by
  induction hclauses with
  | nil => exact ⟨[], .nil, rfl⟩
  | cons hclause _ ih =>
      obtain ⟨rows, hrows, htexts⟩ := ih
      obtain ⟨row, hrow, htext⟩ := (Grammar.clause_eq_ok_iff.1 hclause).words
      exact ⟨row :: rows, .cons hrow hrows, by rw [List.map_cons, List.map_cons, htext, htexts]⟩

/-- The parts of a query, written word by word. -/
theorem intercalate_parts {rows : List (List String)}
    (hrows : List.Forall₂ g.Words r.filters rows) :
    " ".intercalate (scopePart g r ++ rows.map " ".intercalate ++ textPart r) =
      " ".intercalate (scopeWords g r ++ rows.flatten ++ textPart r) := by
  have htext : textPart r = ((textPart r).map fun part => [part]).map " ".intercalate := by
    simp [Function.comp_def]
  have hne : ∀ row ∈ ((nonempty? r.scopeId).toList.map fun scope =>
      [g.scopeField ++ ":", scope]) ++ rows ++ (textPart r).map fun part => [part], row ≠ [] := by
    intro row hrow
    simp only [List.mem_append, List.mem_map] at hrow
    rcases hrow with (⟨scope, -, rfl⟩ | hrow) | ⟨part, -, rfl⟩
    · exact List.cons_ne_nil _ _
    · obtain ⟨f, -, hwords⟩ := exists_mem_of_forall₂ hrows hrow
      obtain ⟨first, rest, rfl, -⟩ := hwords.head
      exact List.cons_ne_nil _ _
    · exact List.cons_ne_nil _ _
  have hparts := Grammar.intercalate_rows hne
  rw [List.map_append, List.map_append, ← scopePart_eq, ← htext] at hparts
  rw [hparts, scopeWords, List.flatten_append, List.flatten_append, ← List.flatMap_def,
    ← List.flatMap_def, List.flatMap_singleton']

theorem intercalate_ne_empty {parts : List String} {part : String} (hmem : part ∈ parts)
    (hpart : part ≠ "") : " ".intercalate parts ≠ "" := by
  rcases parts with _ | ⟨first, _ | ⟨next, parts⟩⟩
  · cases hmem
  · rw [String.intercalate_singleton, ← List.mem_singleton.1 hmem]
    exact hpart
  · rw [String.intercalate_cons_cons]
    simp

/-- Whole words are read back, and the text behind them is taken apart for itself. -/
theorem words_concat {ws : List String} (hwhole : ∀ word ∈ ws, Whole word.toList) {last : String}
    (hne : " ".intercalate (ws ++ [last]) ≠ "") :
    words (" ".intercalate (ws ++ [last])) =
      ws ++ (split .bare last.toList).map String.ofList := by
  have hchars : ∀ text ∈ ws.map String.toList, Whole text := by
    simpa using hwhole
  have hspace : " ".toList = [' '] := rfl
  rw [words, if_neg hne, String.toList_intercalate, hspace, List.map_append, List.map_singleton,
    split_intercalate hchars (List.cons_ne_nil _ _), List.intercalate_singleton, List.map_append,
    List.map_map]
  simp [Function.comp_def]

theorem words_append {ws : List String} (hwhole : ∀ word ∈ ws, Whole word.toList) {part : String}
    (hpart : part ≠ "") : words (" ".intercalate (ws ++ [part])) = ws ++ words part := by
  have hne : " ".intercalate (ws ++ [part]) ≠ "" :=
    intercalate_ne_empty (List.mem_append_right _ List.mem_cons_self) hpart
  rw [words_concat hwhole hne, words, if_neg hpart]

theorem words_intercalate {ws : List String} (hwhole : ∀ word ∈ ws, Whole word.toList)
    (hsome : ws = [] ∨ ∃ word ∈ ws, word ≠ "") : words (" ".intercalate ws) = ws := by
  rcases hsome with rfl | ⟨word, hmem, hword⟩
  · rfl
  · have hne := intercalate_ne_empty hmem hword
    rcases List.eq_nil_or_concat ws with rfl | ⟨init, last, rfl⟩
    · cases hmem
    · rw [List.concat_eq_append] at hwhole hne ⊢
      have hinit : ∀ word ∈ init, Whole word.toList :=
        fun word hword => hwhole word (List.mem_append_left _ hword)
      have hlast : Whole last.toList := hwhole last (List.mem_append_right _ List.mem_cons_self)
      rw [words_concat hinit hne, hlast.split_eq, List.map_singleton, String.ofList_toList]

theorem scopeWords_whole (hscope : ∀ scope, nonempty? r.scopeId = some scope →
    IsBare g.scopeField ∧ IsBare scope) : ∀ word ∈ scopeWords g r, Whole word.toList := by
  intro word hword
  obtain ⟨scope, hfound, hword⟩ := List.mem_flatMap.1 hword
  obtain ⟨hfield, hbare⟩ := hscope scope (Option.mem_toList.1 hfound)
  exact Grammar.whole_pair (Grammar.whole_append hfield.whole (IsBare.whole (by decide)))
    hbare.whole word hword

/-- The words in front of the text search begin with a text that is not empty, if there are any. -/
theorem exists_word_ne_empty {rows : List (List String)}
    (hrows : List.Forall₂ g.Words r.filters rows) : scopeWords g r ++ rows.flatten = [] ∨
      ∃ word ∈ scopeWords g r ++ rows.flatten, word ≠ "" := by
  rw [scopeWords]
  cases nonempty? r.scopeId with
  | some scope => exact .inr ⟨g.scopeField ++ ":", by simp, by simp⟩
  | none =>
      generalize r.filters = filters at hrows
      cases hrows with
      | nil => exact .inl rfl
      | cons hwords _ =>
          obtain ⟨first, rest, rfl, hfirst⟩ := hwords.head
          exact .inr ⟨first, by simp, hfirst⟩

theorem words_text {rows : List (List String)} (hrows : List.Forall₂ g.Words r.filters rows)
    (htidy : r.Tidy g) : words (" ".intercalate (scopeWords g r ++ rows.flatten ++ textPart r)) =
      scopeWords g r ++ rows.flatten ++ (textPart r).flatMap words := by
  have hwhole : ∀ word ∈ scopeWords g r ++ rows.flatten, Whole word.toList := by
    intro word hword
    rcases List.mem_append.1 hword with hscope | hrow
    · exact scopeWords_whole htidy.scope word hscope
    · obtain ⟨row, hmem, hword⟩ := List.mem_flatten.1 hrow
      obtain ⟨f, hf, hwords⟩ := exists_mem_of_forall₂ hrows hmem
      exact hwords.whole (htidy.filters f hf) word hword
  rw [textPart]
  cases nonempty? r.textSearch with
  | none =>
      simp only [Option.toList_none, List.map_nil, List.flatMap_nil, List.append_nil]
      exact words_intercalate hwhole (exists_word_ne_empty hrows)
  | some token =>
      have hpart : "#" ++ token ≠ "" := by simp
      simp only [Option.toList_some, List.map_singleton, List.flatMap_singleton]
      exact words_append hwhole hpart

/-- A request has a query exactly if each of its filters can be written, and the query says it word
by word. -/
theorem ofRequest_wordByWord (g : Grammar) (r : Request) :
    (∀ query, ofRequest g r = .ok query → WordByWord g r query) ∧
    ((∃ query, ofRequest g r = .ok query) ↔ ∀ f ∈ r.filters, ∃ words, g.Words f words) := by
  constructor
  · intro query hquery
    obtain ⟨cs, hclauses, rfl⟩ := ofRequest_eq_ok_iff.1 hquery
    obtain ⟨rows, hrows, htexts⟩ := rows_of_clauses hclauses
    have htext : " ".intercalate (scopePart g r ++ cs.map Clause.text ++ textPart r) =
        " ".intercalate (scopeWords g r ++ rows.flatten ++ textPart r) := by
      rw [htexts, intercalate_parts hrows]
    constructor
    · refine ⟨rows, hrows, htext, fun htidy => ?_⟩
      simp only [htext]
      exact words_text hrows htidy
    · intro f hf hexempt value hvalue hblank
      obtain ⟨c, hc, hclause⟩ : ∃ c ∈ cs, g.clause f = .ok c := by
        have hflip : List.Forall₂ (fun c f => g.clause f = .ok c) cs r.filters := hclauses.flip
        exact exists_mem_of_forall₂ hflip hf
      obtain ⟨hlist, d, hfield, hmem, hdropped⟩ :=
        (Grammar.clause_eq_ok_iff.1 hclause).dropped hexempt hvalue hblank
      refine ⟨hlist, d, hfield, hmem, ?_⟩
      exact List.mem_filterMap.2 ⟨c, hc, by rw [hdropped, Option.map_some]⟩
  · constructor
    · rintro ⟨query, hquery⟩ f hf
      obtain ⟨cs, hclauses, -⟩ := ofRequest_eq_ok_iff.1 hquery
      obtain ⟨rows, hrows, -⟩ := rows_of_clauses hclauses
      have hflip : List.Forall₂ (fun words f => g.Words f words) rows r.filters := hrows.flip
      obtain ⟨words, -, hwords⟩ := exists_mem_of_forall₂ hflip hf
      exact ⟨words, hwords⟩
    · intro hwritten
      obtain ⟨cs, hclauses⟩ : ∃ cs, List.Forall₂ (fun f c => g.clause f = .ok c) r.filters cs := by
        refine exists_forall₂ fun f hf => ?_
        obtain ⟨words, hwords⟩ := hwritten f hf
        obtain ⟨c, hwrites⟩ := hwords.writes
        exact ⟨c, Grammar.clause_eq_ok_iff.2 hwrites⟩
      exact ⟨_, ofRequest_eq_ok_iff.2 ⟨cs, hclauses, rfl⟩⟩

example : words "project: YTM assignee: \"john \\\"jd\\\" doe\" or assignee: jane #crash" =
    ["project:", "YTM", "assignee:", "\"john \\\"jd\\\" doe\"", "or", "assignee:", "jane",
      "#crash"] := by
  decide +kernel

/-- What does not come out word by word. A list of an exempt field is written without its values
with blanks. The scope and the value of an unquoted field may bring a clause along. A backslash at
the end keeps a quoted value open, and a quote in a bare value may swallow the next clause. -/
theorem ofRequest_not_wordByWord :
    ofRequest {} { filters := [
        ⟨"state", false, .member .isIn (.str "Open") [.str "In Progress"]⟩] } =
      .ok ⟨"state: Open", none, [Dropped.message ⟨"state", ["In Progress"], ["Open"]⟩]⟩ ∧
    ofRequest {} { filters := [
        ⟨"priority", false, .compare .equals (some (.str "High type: Bug"))⟩] } =
      ofRequest {} { filters := [⟨"priority", false, .compare .equals (some (.str "High"))⟩,
        ⟨"type", false, .compare .equals (some (.str "Bug"))⟩] } ∧
    ofRequest {} { scopeId := some "YTM type: Bug" } = ofRequest {} {
      scopeId := some "YTM"
      filters := [⟨"type", false, .compare .equals (some (.str "Bug"))⟩] } ∧
    ofRequest {} { filters := [
        ⟨"summary", false, .compare .equals (some (.str "in C:\\"))⟩] } =
      .ok ⟨"summary: \"in C:\\\"", none, []⟩ ∧
    words "summary: \"in C:\\\"" = ["summary:", "\"in", "C:\\\""] ∧
    ofRequest {} { filters := [⟨"size", false, .compare .equals (some (.str "5\""))⟩,
        ⟨"assignee", false, .compare .equals (some (.str "john doe"))⟩] } =
      .ok ⟨"size: 5\" assignee: \"john doe\"", none, []⟩ ∧
    words "size: 5\" assignee: \"john doe\"" = ["size:", "5\" assignee: \"john", "doe\""] := by
  refine ⟨?_, ?_, ?_, ?_, ?_, ?_, ?_⟩ <;> decide +kernel

end Query
end IssueSearch
