import IssueSearch.Proofs.Query.Reading
/-!
The compiled text of a request whose texts are plain, read back. It is the row that the literals of
the request are written as, so it holds of every record that the request holds of; it says the same
exactly when its alternatives cover the request, and it does so unless a list of several values is
written with `or` beside another clause.
-/
namespace IssueSearch

open Query (IsWord IsValue Spells Item itemsOf)

/-- The lower bound that a filter sets. -/
def Condition.lowerBound? : Condition → Option Scalar
  | .compare .greater value => value
  | .between low _ => some low
  | _ => none

/-- A filter whose texts hold nothing that the grammar gives a meaning. -/
structure Filter.Plain (f : Filter) : Prop where
  field : IsValue f.field
  values : ∀ value ∈ f.condition.values, IsValue value.text
  /-- A point at the end of a lower bound would run into those of the range. -/
  lower : ∀ value ∈ f.condition.lowerBound?, value.text.toList.getLast? ≠ some '.'

structure Request.Plain (g : Grammar) (r : Request) : Prop where
  scopeField : IsWord g.scopeField
  scope : ∀ scope ∈ r.scopeId, IsValue scope
  filters : ∀ f ∈ r.filters, f.Plain
  text : ∀ token ∈ r.textSearch, IsWord token

variable {g : Grammar}

theorem Query.isSyntax_of_needsQuotes {rangeBound : Bool} {c : Char}
    (hc : needsQuotes rangeBound c = true) : isSyntax c = true := by
  simp only [needsQuotes, Bool.or_eq_true, decide_eq_true_eq, Bool.and_eq_true] at hc
  rw [isSyntax, Bool.or_eq_true]
  rcases hc with (((hblank | rfl) | rfl) | rfl) | ⟨-, rfl⟩
  · exact .inl hblank
  all_goals exact .inr (by decide)

theorem Query.IsWord.hasBlank_eq_false {text : String} (hword : IsWord text) :
    Text.hasBlank text = false := by
  rw [Text.hasBlank, List.any_eq_false]
  intro c hc hblank
  have hsyntax := hword c hc
  rw [Query.isSyntax, hblank, Bool.true_or] at hsyntax
  cases hsyntax

/-- A word is written as it is, whatever the field. -/
theorem Grammar.write?_of_word {field text : String} {rangeBound : Bool} (hword : IsWord text) :
    g.write? field rangeBound text = some text := by
  have hbare : text.toList.any (Query.needsQuotes rangeBound) = false := by
    rw [List.any_eq_false]
    intro c hc hquotes
    have hsyntax := hword c hc
    rw [Query.isSyntax_of_needsQuotes hquotes] at hsyntax
    cases hsyntax
  rw [Grammar.write?]
  cases g.kind field with
  | exempt => simp [hword.hasBlank_eq_false]
  | unquoted => rfl
  | ordinary => simp [Query.writeOrdinary, hbare]

theorem Grammar.eq_of_write?_of_word {field text written : String} {rangeBound : Bool}
    (hword : IsWord text) (hwritten : g.write? field rangeBound text = some written) :
    text = written := by
  rw [write?_of_word hword] at hwritten
  exact Option.some.inj hwritten

theorem Query.itemsOf_singleton (apart : Bool) (field : String) (negated : Bool) (test : Test) :
    itemsOf apart ⟨field, negated, [test]⟩ = [.clause ⟨field, negated, [test]⟩] := by
  cases apart <;> cases negated <;> rfl

/-- A field with one value behind its colon. -/
theorem Query.Spells.atom {field : String} (hfield : IsWord field) (negated : Bool) {text : String}
    (htext : ∀ c ∈ [' ', '-', ','], c ∉ text.toList) :
    Spells (Grammar.atom negated field text).toList
      [.clause ⟨field, negated, [testOf text.toList]⟩] := by
  have hspells := Spells.clause hfield negated false (htext ' ' (by decide)) (htext '-' (by decide))
  rw [List.splitOn_eq_singleton (htext ',' (by decide))] at hspells
  simpa [Grammar.atom, Grammar.mark] using hspells

theorem Query.IsValue.testOf_eq {text : String} (hvalue : IsValue text) :
    testOf text.toList = .is text := by
  rw [testOf, hvalue.single, String.ofList_toList]

theorem Query.IsWord.not_mem_marks {text : String} (hword : IsWord text) :
    ∀ c ∈ [' ', '-', ','], c ∉ text.toList := by
  intro c hc
  exact hword.not_mem (List.all_eq_true.1 (by decide) c hc)

/-- What stands before two points is read as a lower bound. -/
theorem Query.IsValue.range?_lower {text : String} (hvalue : IsValue text)
    (hend : text.toList.getLast? ≠ some '.') (high : List Char) :
    range? (text.toList ++ '.' :: '.' :: high) = some (text.toList, high) := by
  refine range?_append ?_ high
  have hsingle := hvalue.single
  generalize text.toList = chars at hsingle hend
  induction chars with
  | nil => rfl
  | cons c chars ih =>
      by_cases hpoints : c = '.' ∧ chars.head? = some '.'
      · obtain ⟨rfl, hhead⟩ := hpoints
        obtain ⟨rest, rfl⟩ := List.head?_eq_some_iff.1 hhead
        cases hsingle
      · rw [range?_cons hpoints, Option.map_eq_none_iff] at hsingle
        cases chars with
        | nil =>
            have hc : c ≠ '.' := by simpa using hend
            rw [List.singleton_append, range?_cons (by simp [hc])]
            rfl
        | cons d chars =>
            have hend' : (d :: chars).getLast? ≠ some '.' := by simpa using hend
            rw [List.cons_append, range?_cons (by simpa using hpoints), ih hsingle hend']
            rfl

theorem Comparison.testOf_text {operator : Comparison} {text : String} (hvalue : IsValue text)
    (hend : operator = .greater → text.toList.getLast? ≠ some '.') :
    Query.testOf (Grammar.comparisonText operator text).toList = operator.test text := by
  cases operator with
  | greater =>
      have hrange := hvalue.range?_lower (hend rfl) []
      simp [Grammar.comparisonText, Comparison.test, Query.testOf, hrange]
  | less => simp [Grammar.comparisonText, Comparison.test, Query.testOf, Query.range?]
  | equals | contains | startsWith | endsWith => exact hvalue.testOf_eq

theorem Comparison.not_mem_text (operator : Comparison) {text : String} (hword : IsWord text) :
    ∀ c ∈ [' ', '-', ','], c ∉ (Grammar.comparisonText operator text).toList := by
  intro c hc
  have htext := hword.not_mem_marks c hc
  have hpoint : c ≠ '.' := by
    rintro rfl
    revert hc
    decide
  cases operator <;> simp [Grammar.comparisonText, htext, hpoint]

/-- The clauses of a list, with blanks or with `or` between. -/
theorem Query.Spells.list {field : String} (hfield : IsWord field) (negated : Bool)
    {texts : List String} (hne : texts ≠ []) (hvalues : ∀ text ∈ texts, IsValue text) :
    Spells ((if negated = true then " " else " or ").intercalate
        (texts.map (Grammar.atom negated field))).toList
      (itemsOf true ⟨field, negated, texts.map .is⟩) := by
  have hatom : ∀ text ∈ texts, Spells (Grammar.atom negated field text).toList
      [.clause ⟨field, negated, [.is text]⟩] := by
    intro text htext
    have hspells := Spells.atom hfield negated (hvalues text htext).word.not_mem_marks
    rwa [(hvalues text htext).testOf_eq] at hspells
  rw [String.toList_intercalate, List.map_map]
  cases negated with
  | true =>
      have hrows : List.Forall₂ Spells
          (texts.map fun text => (Grammar.atom true field text).toList)
          (texts.map fun text => [.clause ⟨field, true, [.is text]⟩]) :=
        List.forall₂_map_left_iff.2 (List.forall₂_map_right_iff.2 (List.forall₂_same.2 hatom))
      have hspells := Spells.intercalate hrows (by simpa using hne)
      simpa [itemsOf, Literal.split, Function.comp_def, ← List.flatMap_def,
        ← List.map_eq_flatMap] using hspells
  | false =>
      have hspells : Spells (" or ".toList.intercalate
          (texts.map fun text => (Grammar.atom false field text).toList)) _ :=
        Spells.intercalate_or hne hatom
      simpa [itemsOf, Literal.split, Function.comp_def] using hspells

/-- The values of an exempt list, with commas between. -/
theorem Query.Spells.kept {field : String} (hfield : IsWord field) (negated : Bool)
    {texts : List String} (hne : texts ≠ []) (hvalues : ∀ text ∈ texts, IsValue text) :
    Spells (Grammar.atom negated field (",".intercalate texts)).toList
      [.clause ⟨field, negated, texts.map .is⟩] := by
  have hchars : (",".intercalate texts).toList = [','].intercalate (texts.map String.toList) := by
    rw [String.toList_intercalate]
    rfl
  have hmem : ∀ c ∈ [' ', '-'], c ∉ (",".intercalate texts).toList := by
    intro c hc
    have hcomma : c ≠ ',' := by
      rintro rfl
      revert hc
      decide
    rw [hchars]
    clear hchars
    induction texts with
    | nil => simp
    | cons text texts ih =>
        have hown := (hvalues text List.mem_cons_self).word.not_mem_marks c
          (List.mem_append_left [','] hc)
        cases texts with
        | nil => simpa using hown
        | cons next texts =>
            have hrest := ih (List.cons_ne_nil _ _) fun other hother =>
              hvalues other (List.mem_cons_of_mem _ hother)
            rw [List.map_cons] at hrest ⊢
            rw [List.map_cons, List.intercalate_cons_cons]
            simp [hown, hcomma, hrest]
  have htests : ((",".intercalate texts).toList.splitOn ',').map testOf = texts.map .is := by
    rw [hchars, List.splitOn_intercalate ',' ?_ (by simpa using hne), List.map_map]
    · exact List.map_congr_left fun text htext => (hvalues text htext).testOf_eq
    · intro chars hmem
      obtain ⟨text, htext, rfl⟩ := List.mem_map.1 hmem
      exact (hvalues text htext).word.not_mem_marks ',' (by decide)
  have hspells := Spells.clause hfield negated false (hmem ' ' (by decide)) (hmem '-' (by decide))
  rw [htests] at hspells
  simpa [Grammar.atom, Grammar.mark] using hspells

theorem Query.texts_eq_of_written {field : String} {values : List Scalar}
    (hwords : ∀ value ∈ values, IsWord value.text) {texts : List String}
    (hwritten : List.Forall₂ (fun value text => g.write? field false value.text = some text)
      values texts) : texts = values.map Scalar.text := by
  induction hwritten with
  | nil => rfl
  | cons hvalue _ ih =>
      rw [Grammar.write?_of_word (hwords _ List.mem_cons_self)] at hvalue
      rw [List.map_cons, ← Option.some.inj hvalue,
        ih fun value hmem => hwords value (List.mem_cons_of_mem _ hmem)]

theorem Grammar.exemptClause_of_word {field : String} {operator : Membership} {negated : Bool}
    {values : List Scalar} (hwords : ∀ value ∈ values, IsWord value.text) {c : Clause}
    (hclause : exemptClause field operator negated values = .ok c) :
    c = { text := atom negated field (",".intercalate (values.map Scalar.text)) } := by
  have hkept : (values.map Scalar.text).filter (fun text => !Text.hasBlank text) =
      values.map Scalar.text := by
    rw [List.filter_eq_self]
    intro text hmem
    obtain ⟨value, hvalue, rfl⟩ := List.mem_map.1 hmem
    rw [(hwords value hvalue).hasBlank_eq_false]
    rfl
  have hdropped : (values.map Scalar.text).filter Text.hasBlank = [] := by
    rw [List.filter_eq_nil_iff]
    intro text hmem
    obtain ⟨value, hvalue, rfl⟩ := List.mem_map.1 hmem
    rw [(hwords value hvalue).hasBlank_eq_false]
    exact Bool.false_ne_true
  simp only [exemptClause, hkept, hdropped, List.isEmpty_nil, if_true] at hclause
  split at hclause
  · cases hclause
  · exact (Except.ok.inj hclause).symm

/-- A text is read as the row that a literal is written as. -/
def Grammar.Reads (g : Grammar) (text : String) (l : Literal) : Prop :=
  Spells text.toList (itemsOf (!g.isExempt l.field) l)

theorem Grammar.Reads.of_spells {text field : String} {negated : Bool} {test : Test}
    (hspells : Spells text.toList [.clause ⟨field, negated, [test]⟩]) :
    g.Reads text ⟨field, negated, [test]⟩ := by
  rw [Reads, Query.itemsOf_singleton]
  exact hspells

theorem Grammar.reads_compare {field : String} (hfield : IsWord field) (negate : Bool)
    {operator : Comparison} {text : String} (hvalue : IsValue text)
    (hlower : operator = .greater → text.toList.getLast? ≠ some '.') :
    g.Reads (atom negate field (comparisonText operator text))
      ⟨field, negate, [operator.test text]⟩ := by
  have hspells := Spells.atom hfield negate (Comparison.not_mem_text operator hvalue.word)
  rw [Comparison.testOf_text hvalue hlower] at hspells
  exact .of_spells hspells

theorem Grammar.reads_between {field : String} (hfield : IsWord field) (negate : Bool)
    {low high : String} (hlow : IsValue low) (hhigh : IsValue high)
    (hlower : low.toList.getLast? ≠ some '.') :
    g.Reads (atom negate field (low ++ ".." ++ high)) ⟨field, negate, [.span low high]⟩ := by
  have hmarks : ∀ c ∈ [' ', '-', ','], c ∉ (low ++ ".." ++ high).toList := by
    intro c hc
    have hpoint : c ≠ '.' := by
      rintro rfl
      revert hc
      decide
    simp [hlow.word.not_mem_marks c hc, hhigh.word.not_mem_marks c hc, hpoint]
  have htest : Query.testOf (low ++ ".." ++ high).toList = .span low high := by
    have hrange := hlow.range?_lower hlower high.toList
    simp [Query.testOf, hrange]
  have hspells := Spells.atom hfield negate hmarks
  rw [htest] at hspells
  exact .of_spells hspells

theorem Grammar.reads_presence {field : String} (hfield : IsValue field) (negated : Bool) :
    g.Reads ("has: " ++ mark negated ++ field) ⟨presenceField, negated, [.is field]⟩ := by
  have hhas : IsWord presenceField := by decide
  have hspells := Spells.clause hhas false negated (hfield.word.not_mem (by decide))
    (hfield.word.not_mem (by decide))
  rw [List.splitOn_eq_singleton (hfield.word.not_mem (by decide)), List.map_singleton,
    hfield.testOf_eq, Bool.false_bne] at hspells
  refine .of_spells ?_
  simpa [presenceField, mark] using hspells

/-- The clause of a plain filter is read as the row that its literal is written as. -/
theorem Filter.Plain.reads {f : Filter} {c : Clause} (hplain : f.Plain) (hwrites : g.Writes f c) :
    g.Reads c.text f.literal := by
  obtain ⟨hfield, hvalues, hlower⟩ := hplain
  cases hwrites with
  | @compare field negate operator value text written =>
      have hvalue : IsValue value.text := hvalues value (by simp [Condition.values])
      obtain rfl := Grammar.eq_of_write?_of_word hvalue.word written
      refine Grammar.reads_compare hfield.word negate hvalue ?_
      rintro rfl
      exact hlower value rfl
  | @list field negate operator first rest texts ordinary written =>
      obtain rfl := Query.texts_eq_of_written (fun value hmem => (hvalues value hmem).word) written
      have hspells := Spells.list hfield.word (negate != (operator == .notIn))
        (by simp : (first :: rest).map Scalar.text ≠ []) (by simpa [Condition.values] using hvalues)
      rw [Grammar.Reads]
      simp only [Filter.literal, ordinary, Bool.not_false]
      simp only [List.map_map] at hspells ⊢
      exact hspells
  | @kept field negate operator first rest clause exempt written =>
      obtain rfl :=
        Grammar.exemptClause_of_word (fun value hmem => (hvalues value hmem).word) written
      have hspells := Spells.kept hfield.word (negate != (operator == .notIn))
        (by simp : (first :: rest).map Scalar.text ≠ []) (by simpa [Condition.values] using hvalues)
      rw [List.map_map] at hspells
      rw [Grammar.Reads]
      simp only [Filter.literal, exempt, Bool.not_true]
      exact hspells
  | @between field negate low high lowText highText writtenLow writtenHigh =>
      have hlow : IsValue low.text := hvalues low (by simp [Condition.values])
      have hhigh : IsValue high.text := hvalues high (by simp [Condition.values])
      obtain rfl := Grammar.eq_of_write?_of_word hlow.word writtenLow
      obtain rfl := Grammar.eq_of_write?_of_word hhigh.word writtenHigh
      exact Grammar.reads_between hfield.word negate hlow hhigh (hlower low rfl)
  | @presence field negate operator =>
      have hmark : ((operator == .isEmpty) != negate) = (negate != (operator == .isEmpty)) := by
        cases negate <;> cases operator <;> rfl
      rw [hmark]
      exact Grammar.reads_presence hfield (negate != (operator == .isEmpty))

/-- What has a written form says something. -/
theorem Grammar.Writes.tests_ne_nil {f : Filter} {c : Clause} (hwrites : g.Writes f c) :
    f.literal.tests ≠ [] := by
  cases hwrites <;> simp [Filter.literal]

theorem Query.mem_of_nonempty? {text : Option String} {value : String}
    (hmem : value ∈ (nonempty? text).toList) : value ∈ text := by
  rw [Option.mem_toList, nonempty?, Option.filter_eq_some_iff] at hmem
  exact hmem.1

theorem Request.Plain.reads_scope {r : Request} (hplain : r.Plain g) :
    List.Forall₂ g.Reads (Query.scopePart g r)
      ((Query.nonempty? r.scopeId).toList.map fun scope => ⟨g.scopeField, false, [.is scope]⟩) := by
  rw [Query.scopePart, List.forall₂_map_left_iff, List.forall₂_map_right_iff, List.forall₂_same]
  intro scope hmem
  have hvalue := hplain.scope scope (Query.mem_of_nonempty? hmem)
  have hspells := Spells.atom hplain.scopeField false hvalue.word.not_mem_marks
  rw [hvalue.testOf_eq] at hspells
  exact .of_spells hspells

theorem Request.Plain.reads_text {r : Request} (hplain : r.Plain g) :
    List.Forall₂ g.Reads (Query.textPart r)
      ((Query.nonempty? r.textSearch).toList.map fun token => ⟨textField, false, [.is token]⟩) := by
  rw [Query.textPart, List.forall₂_map_left_iff, List.forall₂_map_right_iff, List.forall₂_same]
  intro token hmem
  have hspells := Spells.word (hplain.text token (Query.mem_of_nonempty? hmem))
  rw [Grammar.Reads, Query.itemsOf_singleton, String.toList_append]
  exact hspells

theorem Request.Plain.reads_filters {filters : List Filter} {cs : List Clause}
    (hplain : ∀ f ∈ filters, f.Plain)
    (hclauses : List.Forall₂ (fun f c => g.clause f = .ok c) filters cs) :
    List.Forall₂ g.Reads (cs.map Clause.text) (filters.map Filter.literal) := by
  rw [List.forall₂_map_left_iff, List.forall₂_map_right_iff]
  induction hclauses with
  | nil => exact .nil
  | cons hclause _ ih =>
      refine .cons ?_ (ih fun f hf => hplain f (List.mem_cons_of_mem _ hf))
      exact (hplain _ List.mem_cons_self).reads (Grammar.clause_eq_ok_iff.1 hclause)

/-- The compiled text of a plain request is read as the row that its literals are written as. -/
theorem Request.Plain.read?_eq {r : Request} {query : Query} (hplain : r.Plain g)
    (hcompiled : Query.ofRequest g r = .ok query) :
    Query.read? query.text =
      some ((r.literals g).flatMap fun l => itemsOf (!g.isExempt l.field) l) := by
  obtain ⟨cs, hclauses, rfl⟩ := Query.ofRequest_eq_ok_iff.1 hcompiled
  have hreads : List.Forall₂ g.Reads
      (Query.scopePart g r ++ cs.map Clause.text ++ Query.textPart r) (r.literals g) :=
    List.rel_append (List.rel_append hplain.reads_scope
      (Request.Plain.reads_filters hplain.filters hclauses)) hplain.reads_text
  dsimp only
  generalize Query.scopePart g r ++ cs.map Clause.text ++ Query.textPart r = parts at hreads
  generalize r.literals g = ls at hreads
  cases hreads with
  | nil => rfl
  | @cons text l parts ls hread hrest =>
      have hrows : List.Forall₂ Spells ((text :: parts).map String.toList)
          ((l :: ls).map fun l => itemsOf (!g.isExempt l.field) l) :=
        List.forall₂_map_left_iff.2 (List.forall₂_map_right_iff.2 (.cons hread hrest))
      refine Spells.read?_eq ?_
      rw [String.toList_intercalate, List.flatMap_def]
      exact Spells.intercalate hrows (by simp)

theorem Request.tests_ne_nil {r : Request} {query : Query}
    (hcompiled : Query.ofRequest g r = .ok query) : ∀ f ∈ r.filters, f.literal.tests ≠ [] := by
  obtain ⟨cs, hclauses, -⟩ := Query.ofRequest_eq_ok_iff.1 hcompiled
  intro f hf
  obtain ⟨i, hi, rfl⟩ := List.getElem_of_mem hf
  have hclause := hclauses.get hi (hclauses.length_eq ▸ hi)
  exact (Grammar.clause_eq_ok_iff.1 hclause).tests_ne_nil

/-- A list filter that is written with `or`: one of several values that is not negated, of a field
that takes no list. -/
def Filter.isOpen (g : Grammar) (f : Filter) : Bool :=
  match f.condition with
  | .member operator _ rest =>
      !g.isExempt f.field && !(f.negate != (operator == .notIn)) && !rest.isEmpty
  | _ => false

theorem Filter.isOpen_of_scattered {f : Filter}
    (hscattered : Query.Scattered (!g.isExempt f.literal.field) f.literal) :
    f.isOpen g = true := by
  obtain ⟨hordinary, hpositive, hlong⟩ := hscattered
  rcases f with ⟨field, negate, ⟨operator, value⟩ | ⟨operator, first, rest⟩ | ⟨low, high⟩ |
    operator⟩
  · cases value <;> simp [Filter.literal] at hlong
  · have hrest : rest ≠ [] := by
      rintro rfl
      simp [Filter.literal] at hlong
    simp only [Filter.literal] at hordinary hpositive
    simp [isOpen, hordinary, hpositive, hrest]
  · simp [Filter.literal] at hlong
  · simp [Filter.literal] at hlong

theorem Request.mem_literals {r : Request} {l : Literal} (hmem : l ∈ r.literals g) :
    (∃ field value, l = ⟨field, false, [.is value]⟩) ∨ ∃ f ∈ r.filters, l = f.literal := by
  rw [Request.literals, List.mem_append, List.mem_append, List.mem_map, List.mem_map,
    List.mem_map] at hmem
  rcases hmem with (⟨scope, -, rfl⟩ | ⟨f, hf, rfl⟩) | ⟨token, -, rfl⟩
  · exact .inl ⟨_, scope, rfl⟩
  · exact .inr ⟨f, hf, rfl⟩
  · exact .inl ⟨_, token, rfl⟩

theorem Request.not_scattered {r : Request} (hopen : ∀ f ∈ r.filters, f.isOpen g = false) :
    ∀ l ∈ r.literals g, ¬ Query.Scattered (!g.isExempt l.field) l := by
  intro l hl hscattered
  rcases Request.mem_literals hl with ⟨field, value, rfl⟩ | ⟨f, hf, rfl⟩
  · exact absurd hscattered.2.2 (by simp)
  · have htrue := Filter.isOpen_of_scattered hscattered
    rw [hopen f hf] at htrue
    cases htrue

/-- What the compiled text of a plain request says. It holds of every record that the request holds
of, and of no others exactly when each alternative that it leaves covers every part of the request.
So it does if no list is written with `or`, or nothing stands beside the list that is. -/
theorem Request.Plain.text_meaning {r : Request} {query : Query} (hplain : r.Plain g)
    (hcompiled : Query.ofRequest g r = .ok query) :
    ∃ items, Query.read? query.text = some items ∧
      (∀ record, r.holds g record = true → Query.itemsHold record items = true) ∧
      ((∀ record, Query.itemsHold record items = r.holds g record) ↔
        ∀ alternative ∈ Query.alternatives items, ∀ l ∈ r.literals g,
          Query.Covers alternative l) ∧
      ((∀ f ∈ r.filters, f.isOpen g = false) ∨ (r.literals g).length ≤ 1 →
        ∀ record, Query.itemsHold record items = r.holds g record) := by
  have htests := Request.tests_ne_nil hcompiled
  have hholds : ∀ record, r.holds g record = (r.literals g).all (Literal.holds record) :=
    fun record => r.holds_eq_all g record htests
  have hweaker : ∀ record, (r.literals g).all (Literal.holds record) = true →
      Query.itemsHold record
        ((r.literals g).flatMap fun l => itemsOf (!g.isExempt l.field) l) = true :=
    fun record hall => Query.itemsHold_of_all (List.all_eq_true.1 hall)
  simp only [hholds]
  refine ⟨_, hplain.read?_eq hcompiled, hweaker, Query.itemsHold_iff_covers hweaker, ?_⟩
  intro hopen record
  refine Query.itemsHold_eq_all (fun l hl => ?_) (hopen.imp_left Request.not_scattered) record
  rcases Request.mem_literals hl with ⟨field, value, rfl⟩ | ⟨f, hf, rfl⟩
  · simp
  · exact htests f hf

/-- Bugs and tasks of one project. -/
def bugsAndTasks : Request where
  scopeId := some "YTM"
  filters := [⟨"type", false, .member .isIn (.str "Bug") [.str "Task"]⟩]

theorem bugsAndTasks_compiled : Query.ofRequest {} bugsAndTasks =
    .ok ⟨"project: YTM type: Bug or type: Task", none, []⟩ := by
  decide +kernel

theorem bugsAndTasks_plain : bugsAndTasks.Plain {} where
  scopeField := by decide
  scope := by
    intro scope hscope
    obtain rfl : "YTM" = scope := Option.some.inj hscope
    exact ⟨by decide, by decide⟩
  filters := by
    intro f hf
    obtain rfl := List.mem_singleton.1 hf
    refine ⟨⟨by decide, by decide⟩, ?_, nofun⟩
    intro value hvalue
    simp only [Condition.values, List.mem_cons, List.not_mem_nil, or_false] at hvalue
    rcases hvalue with rfl | rfl
    · exact ⟨by decide, by decide⟩
    · exact ⟨by decide, by decide⟩
  text := nofun

/-- A task of another project has the compiled text hold of it, but not the request. -/
theorem Request.Plain.text_meaning_bugsAndTasks :
    bugsAndTasks.Plain {} ∧
    Query.ofRequest {} bugsAndTasks = .ok ⟨"project: YTM type: Bug or type: Task", none, []⟩ ∧
    ∃ items, Query.read? "project: YTM type: Bug or type: Task" = some items ∧
      (∀ record, bugsAndTasks.holds {} record = true → Query.itemsHold record items = true) ∧
      ¬ ∀ record, Query.itemsHold record items = bugsAndTasks.holds {} record := by
  refine ⟨bugsAndTasks_plain, bugsAndTasks_compiled, ?_⟩
  obtain ⟨items, hread, hweaker, hexact, -⟩ :=
    bugsAndTasks_plain.text_meaning bugsAndTasks_compiled
  refine ⟨items, hread, hweaker, fun hsame => ?_⟩
  have hitems : Query.read? "project: YTM type: Bug or type: Task" =
      some [.clause ⟨"project", false, [.is "YTM"]⟩, .clause ⟨"type", false, [.is "Bug"]⟩, .or,
        .clause ⟨"type", false, [.is "Task"]⟩] := by
    decide +kernel
  obtain rfl := Option.some.inj (hitems.symm.trans hread)
  have htask := hsame fun field test => field == "type" && test == .is "Task"
  revert htask
  decide +kernel

end IssueSearch
