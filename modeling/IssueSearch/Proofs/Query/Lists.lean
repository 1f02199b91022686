import IssueSearch.Proofs.Query.Negation
/-!
Which lists of an exempt field are written alike. The values without blanks stand in the clause
with commas between, and nothing keeps a comma out of a value, so that the clause tells the pieces
between the commas and not the values. Lists without commas in their values are told apart, the
spelling of the field and the negation always are; a list with a comma in its clause is written like
another.
-/
namespace IssueSearch

namespace Text

/-- Lower case takes the place of a character by one, of the dotted capital i by two. -/
theorem length_lowerChars (before text : List Char) :
    (lowerChars before text).length = text.length + text.count '\u0130' := by
  induction text generalizing before with
  | nil => rfl
  | cons c rest ih =>
      have hhead : (lowerAt before c rest).length = 1 + [c].count '\u0130' := by
        unfold lowerAt
        by_cases hsigma : c = '\u03A3'
        · subst hsigma
          rw [if_pos rfl]
          split <;> rfl
        · rw [if_neg hsigma]
          by_cases hdotted : c = '\u0130'
          · subst hdotted
            rfl
          · rw [if_neg hdotted, List.count_singleton, beq_eq_false_iff_ne.2 hdotted]
            rfl
      have hcount : (c :: rest).count '\u0130' = [c].count '\u0130' + rest.count '\u0130' := by
        rw [← List.count_append, List.singleton_append]
      rw [lowerChars, List.length_append, hhead, ih, List.length_cons, hcount]
      omega

/-- Names that differ in case only are equally long when they are written in lower case. -/
theorem length_of_lower_eq {name name' : String} (hsame : lower name = lower name') :
    name.toList.length + name.toList.count '\u0130' =
      name'.toList.length + name'.toList.count '\u0130' := by
  rw [← length_lowerChars [], ← length_lowerChars [], String.ofList_injective hsame]

end Text

namespace Query

/-! ### A clause tells its negation, its field and what stands behind the colon -/

/-- Of two names that differ in case only, none is the other with something behind it. -/
theorem eq_of_append_eq {name name' rest : List Char}
    (hlength : name.length + name.count '\u0130' = name'.length + name'.count '\u0130')
    (happend : name' = name ++ rest) : rest = [] := by
  rw [happend, List.length_append, List.count_append] at hlength
  exact List.length_eq_zero_iff.1 (by omega)

theorem colon_append_inj_of_lower {name name' : String} {rest rest' : List Char}
    (hsame : Text.lower name = Text.lower name')
    (heq : name.toList ++ ':' :: rest = name'.toList ++ ':' :: rest') :
    name = name' ∧ rest = rest' := by
  have hlength := Text.length_of_lower_eq hsame
  rcases List.append_eq_append_iff.1 heq with ⟨more, hmore, hrest⟩ | ⟨more, hmore, hrest⟩
  · obtain rfl := eq_of_append_eq hlength hmore
    rw [List.append_nil, String.toList_inj] at hmore
    exact ⟨hmore.symm, (List.cons.inj hrest).2⟩
  · obtain rfl := eq_of_append_eq hlength.symm hmore
    rw [List.append_nil, String.toList_inj] at hmore
    exact ⟨hmore, (List.cons.inj hrest).2.symm⟩

/-- A dash in front of a name does not make it another spelling of the name. -/
theorem dash_append_ne_of_lower {name name' : String} {rest rest' : List Char}
    (hsame : Text.lower name = Text.lower name') :
    '-' :: (name.toList ++ ':' :: ' ' :: rest) ≠ name'.toList ++ ':' :: ' ' :: rest' := by
  intro heq
  have hlength := Text.length_of_lower_eq hsame
  have hdash : ('-' :: name.toList).length + ('-' :: name.toList).count '\u0130' =
      name'.toList.length + name'.toList.count '\u0130' + 1 := by
    rw [List.length_cons, List.count_cons_of_ne (by decide)]
    omega
  rw [← List.cons_append] at heq
  rcases List.append_eq_append_iff.1 heq with ⟨more, hmore, hrest⟩ | ⟨more, hmore, hrest⟩
  · rw [hmore, List.length_append, List.count_append] at hdash
    omega
  · -- Just one character is left over, the colon of the other clause, and no colon follows it.
    rw [hmore, List.length_append, List.count_append] at hdash
    obtain ⟨c, rfl⟩ : ∃ c, more = [c] := by
      rcases more with _ | ⟨c, _ | ⟨d, more⟩⟩
      · simp at hdash
      · exact ⟨c, rfl⟩
      · simp only [List.length_cons] at hdash
        omega
    simp at hrest

/-- Clauses of a field, in whatever case it is spelled. -/
theorem atom_eq_iff_of_lower {negated negated' : Bool} {field field' text text' : String}
    (hsame : Text.lower field = Text.lower field') :
    Grammar.atom negated field text = Grammar.atom negated' field' text' ↔
      field = field' ∧ negated = negated' ∧ text = text' := by
  constructor
  · intro heq
    have hchars : ∀ (negated : Bool) (field text : String),
        (Grammar.atom negated field text).toList =
          (Grammar.mark negated).toList ++ (field.toList ++ ':' :: ' ' :: text.toList) := by
      intro negated field text
      simp [Grammar.atom]
    have hlists := congrArg String.toList heq
    rw [hchars, hchars] at hlists
    cases negated <;> cases negated'
    · obtain ⟨rfl, htext⟩ := colon_append_inj_of_lower hsame hlists
      exact ⟨rfl, rfl, String.toList_inj.1 (List.cons.inj htext).2⟩
    · exact absurd hlists.symm (dash_append_ne_of_lower hsame.symm)
    · exact absurd hlists (dash_append_ne_of_lower hsame)
    · obtain ⟨rfl, htext⟩ := colon_append_inj_of_lower hsame (List.cons.inj hlists).2
      exact ⟨rfl, rfl, String.toList_inj.1 (List.cons.inj htext).2⟩
  · rintro ⟨rfl, rfl, rfl⟩
    rfl

/-! ### Values with commas between -/

/-- The pieces of a text between its commas. -/
def pieces (text : String) : List String := (text.toList.splitOn ',').map String.ofList

theorem pieces_ne_nil (text : String) : pieces text ≠ [] := by
  simp [pieces, List.splitOn_ne_nil]

theorem pieces_of_no_comma {text : String} (hcomma : ',' ∉ text.toList) : pieces text = [text] := by
  rw [pieces, List.splitOn_eq_singleton hcomma, List.map_singleton, String.ofList_toList]

theorem pieces_append (text rest : String) :
    pieces (text ++ "," ++ rest) = pieces text ++ pieces rest := by
  have hchars : (text ++ "," ++ rest).toList = text.toList ++ ',' :: rest.toList := by simp
  rw [pieces, hchars, List.splitOn_append_cons_self, List.map_append]
  rfl

/-- A text is its pieces with commas between. -/
theorem intercalate_pieces (text : String) : ",".intercalate (pieces text) = text := by
  have hlists : (pieces text).map String.toList = text.toList.splitOn ',' := by
    simp [pieces, Function.comp_def]
  rw [← String.toList_inj, String.toList_intercalate, hlists]
  exact List.intercalate_splitOn ','

theorem pieces_intercalate {texts : List String} (hne : texts ≠ []) :
    pieces (",".intercalate texts) = texts.flatMap pieces := by
  induction texts with
  | nil => exact absurd rfl hne
  | cons text rest ih =>
      cases rest with
      | nil => simp
      | cons next rest =>
          rw [String.intercalate_cons_cons, pieces_append, ih (List.cons_ne_nil next rest)]
          rfl

/-- Rows of values are joined to one text exactly if they have the same pieces. -/
theorem intercalate_eq_iff {texts texts' : List String} (hne : texts ≠ []) (hne' : texts' ≠ []) :
    ",".intercalate texts = ",".intercalate texts' ↔
      texts.flatMap pieces = texts'.flatMap pieces := by
  rw [← pieces_intercalate hne, ← pieces_intercalate hne']
  refine ⟨fun heq => heq ▸ rfl, fun heq => ?_⟩
  rw [← intercalate_pieces (",".intercalate texts), heq, intercalate_pieces]

theorem flatMap_pieces_of_no_comma {texts : List String}
    (hcomma : ∀ text ∈ texts, ',' ∉ text.toList) : texts.flatMap pieces = texts := by
  have hsingle : texts.flatMap pieces = texts.flatMap fun text => [text] :=
    List.flatMap_congr fun text htext => pieces_of_no_comma (hcomma text htext)
  rw [hsingle, List.flatMap_singleton']

/-- What is one piece is one value. -/
theorem eq_of_flatMap_pieces {texts : List String} {piece : String}
    (hone : texts.flatMap pieces = [piece]) : texts = [piece] := by
  cases texts with
  | nil => cases hone
  | cons text rest =>
      obtain ⟨first, others, hpieces⟩ := List.exists_cons_of_ne_nil (pieces_ne_nil text)
      rw [List.flatMap_cons, hpieces, List.cons_append] at hone
      obtain ⟨rfl, hnone⟩ := List.cons.inj hone
      obtain ⟨rfl, hrest⟩ := List.append_eq_nil_iff.1 hnone
      have htext := intercalate_pieces text
      rw [hpieces, String.intercalate_singleton] at htext
      cases rest with
      | nil => rw [htext]
      | cons next rest => simp [pieces_ne_nil] at hrest

end Query

/-! ### Lists of an exempt field -/

namespace Filter

/-- A list of values of a field, in whatever case the field is spelled. -/
structure ListOn (field : String) (f : Filter) : Prop where
  spelled : Text.lower f.field = Text.lower field
  list : ∃ operator first rest, f.condition = .member operator first rest

/-- The texts of the values that stand in the clause of a filter, in order. -/
def keptTexts (g : Grammar) (f : Filter) : List String := (f.kept g).map Scalar.text

/-- What stands between the commas of the clause of a list. -/
def pieces (g : Grammar) (f : Filter) : List String := (f.keptTexts g).flatMap Query.pieces

variable {g : Grammar} {field : String} {f : Filter}

theorem ListOn.exempt (hlist : f.ListOn field) (hexempt : g.isExempt field = true) :
    g.isExempt f.field = true := by
  rw [Grammar.isExempt, hlist.spelled]
  exact hexempt

theorem ListOn.keptTexts_eq (hlist : f.ListOn field) (hexempt : g.isExempt field = true) :
    f.keptTexts g =
      (f.condition.values.map Scalar.text).filter fun text => !Text.hasBlank text := by
  obtain ⟨operator, first, rest, hcondition⟩ := hlist.list
  have hleft : ∀ value, f.leavesOut g value = Text.hasBlank value.text := by
    intro value
    rw [leavesOut, hcondition]
    simp only [hlist.exempt hexempt, Bool.true_and]
  rw [keptTexts, kept, List.filter_map]
  simp only [hleft]
  rfl

/-- A list is written if a value without blanks is left, as the values left with commas between. -/
theorem ListOn.clause_eq_ok_iff (hlist : f.ListOn field) (hexempt : g.isExempt field = true)
    {c : Clause} : g.clause f = .ok c ↔ f.keptTexts g ≠ [] ∧ c = {
      text := Grammar.atom f.negated f.field (",".intercalate (f.keptTexts g))
      dropped := if f.lost g = [] then none else some (f.report g) } := by
  have hexempt := hlist.exempt hexempt
  obtain ⟨spelling, negate, condition⟩ := f
  obtain ⟨-, operator, first, rest, rfl⟩ := hlist
  have hclause : g.clause ⟨spelling, negate, .member operator first rest⟩ =
      Grammar.exemptClause spelling operator (negate != (operator == .notIn)) (first :: rest) :=
    if_pos hexempt
  rw [hclause, Grammar.exemptClause_eq hexempt negate, ← negated_list spelling negate operator
    first rest, keptTexts, ne_eq, List.map_eq_nil_iff]
  split
  · rename_i hnone
    exact iff_of_false nofun fun hsome => hsome.1 hnone
  · rename_i hsome
    rw [Except.ok.injEq, eq_comm, and_iff_right hsome]

theorem ListOn.text_eq_iff {f' : Filter} {c c' : Clause} (hexempt : g.isExempt field = true)
    (hlist : f.ListOn field) (hlist' : f'.ListOn field) (hclause : g.clause f = .ok c)
    (hclause' : g.clause f' = .ok c') : c.text = c'.text ↔
      f.field = f'.field ∧ f.negated = f'.negated ∧ f.pieces g = f'.pieces g := by
  obtain ⟨hne, rfl⟩ := (hlist.clause_eq_ok_iff hexempt).1 hclause
  obtain ⟨hne', rfl⟩ := (hlist'.clause_eq_ok_iff hexempt).1 hclause'
  rw [Query.atom_eq_iff_of_lower (hlist.spelled.trans hlist'.spelled.symm),
    Query.intercalate_eq_iff hne hne']
  rfl

/-- A list is refused if all its values hold blanks, and for nothing else. -/
theorem ListOn.clause_eq_error_iff (hlist : f.ListOn field) (hexempt : g.isExempt field = true) :
    (∃ e, g.clause f = .error e) ↔
      ∀ value ∈ f.condition.values, Text.hasBlank value.text = true := by
  have hnone : f.keptTexts g = [] ↔
      ∀ value ∈ f.condition.values, Text.hasBlank value.text = true := by
    simp [hlist.keptTexts_eq hexempt]
  rw [← hnone]
  cases hclause : g.clause f with
  | error e =>
      refine iff_of_true ⟨e, rfl⟩ (by_contra fun hsome => ?_)
      have hwritten := (hlist.clause_eq_ok_iff hexempt).2 ⟨hsome, rfl⟩
      rw [hclause] at hwritten
      cases hwritten
  | ok c => exact iff_of_false nofun ((hlist.clause_eq_ok_iff hexempt).1 hclause).1

/-- A list of texts without blanks is written with all of them. -/
theorem clause_of_texts (hexempt : g.isExempt field = true) (negate : Bool) (operator : Membership)
    (first : String) (rest : List String)
    (hunblank : ∀ text ∈ first :: rest, Text.hasBlank text = false) :
    let f : Filter := ⟨field, negate, .member operator (.str first) (rest.map .str)⟩
    f.keptTexts g = first :: rest ∧ g.clause f =
      .ok { text := Grammar.atom f.negated field (",".intercalate (first :: rest)) } := by
  intro f
  have hlist : f.ListOn field := ⟨rfl, _, _, _, rfl⟩
  have htexts : f.condition.values.map Scalar.text = first :: rest := by
    simp [f, Condition.values, Scalar.text, Function.comp_def]
  have hkept : f.keptTexts g = first :: rest := by
    rw [hlist.keptTexts_eq hexempt, htexts, List.filter_eq_self]
    intro text htext
    rw [hunblank text htext, Bool.not_false]
  have hlost : f.lost g = [] := by
    rw [List.eq_nil_iff_forall_not_mem]
    intro value hvalue
    obtain ⟨hmem, -, -, hblank⟩ := mem_lost_iff.1 hvalue
    have htext : value.text ∈ first :: rest := by
      rw [← htexts]
      exact List.mem_map_of_mem hmem
    rw [hunblank _ htext] at hblank
    cases hblank
  refine ⟨hkept, (hlist.clause_eq_ok_iff hexempt).2 ⟨by simp [hkept], ?_⟩⟩
  rw [hkept, if_pos hlost]

/-- What is kept holds no blanks, and neither does what it is joined to. -/
theorem ListOn.unblank (hlist : f.ListOn field) (hexempt : g.isExempt field = true) :
    (∀ text ∈ f.keptTexts g, Text.hasBlank text = false) ∧
      Text.hasBlank (",".intercalate (f.keptTexts g)) = false := by
  have heach : ∀ text ∈ f.keptTexts g, Text.hasBlank text = false := by
    intro text htext
    rw [hlist.keptTexts_eq hexempt] at htext
    simpa using (List.mem_filter.1 htext).2
  have hcomma : Text.isBlank ',' = false := by decide
  refine ⟨heach, List.any_eq_false.2 ?_⟩
  rw [String.toList_intercalate]
  refine forall_mem_intercalate (by simp [hcomma]) fun chars hchars c hc => ?_
  obtain ⟨text, htext, rfl⟩ := List.mem_map.1 hchars
  exact List.any_eq_false.1 (heach text htext) c hc

/-- Texts without blanks that are joined to the same text are written like the list. -/
theorem ListOn.exists_alike (hlist : f.ListOn field) (hexempt : g.isExempt field = true)
    {c : Clause} (hclause : g.clause f = .ok c) (first : String) (rest : List String)
    (hunblank : ∀ text ∈ first :: rest, Text.hasBlank text = false)
    (hjoined : ",".intercalate (first :: rest) = ",".intercalate (f.keptTexts g)) :
    ∃ f' c', f'.ListOn field ∧ g.clause f' = .ok c' ∧ c'.text = c.text ∧
      f'.keptTexts g = first :: rest := by
  obtain ⟨-, rfl⟩ := (hlist.clause_eq_ok_iff hexempt).1 hclause
  obtain ⟨hkept, hclause'⟩ :=
    clause_of_texts (hlist.exempt hexempt) f.negated .isIn first rest hunblank
  have hlist' : ListOn field ⟨f.field, f.negated, .member .isIn (.str first) (rest.map .str)⟩ :=
    ⟨hlist.spelled, _, _, _, rfl⟩
  refine ⟨_, _, hlist', hclause', ?_, hkept⟩
  have hnegated : (f.negated != (Membership.isIn == .notIn)) = f.negated := Bool.bne_false _
  rw [hjoined, negated_list, hnegated]

/-- A list is written like another exactly if a comma stands among its values or between them. -/
theorem ListOn.shared_iff (hlist : f.ListOn field) (hexempt : g.isExempt field = true) {c : Clause}
    (hclause : g.clause f = .ok c) :
    (∃ f' c', f'.ListOn field ∧ g.clause f' = .ok c' ∧ c'.text = c.text ∧
      f'.keptTexts g ≠ f.keptTexts g) ↔ 2 ≤ (f.pieces g).length := by
  have hne := ((hlist.clause_eq_ok_iff hexempt).1 hclause).1
  obtain ⟨hunblank, hjoined⟩ := hlist.unblank hexempt
  constructor
  · rintro ⟨f', c', hlist', hclause', htext, hother⟩
    have hpieces := ((hlist'.text_eq_iff hexempt hlist hclause' hclause).1 htext).2.2
    by_contra hfew
    obtain ⟨piece, hone⟩ : ∃ piece, f.pieces g = [piece] := by
      have hsome : f.pieces g ≠ [] := by
        simpa [pieces, Query.pieces_ne_nil] using List.exists_mem_of_ne_nil _ hne
      have hlength := List.length_pos_iff.2 hsome
      exact List.length_eq_one_iff.1 (by omega)
    refine hother ?_
    rw [Query.eq_of_flatMap_pieces hone, Query.eq_of_flatMap_pieces (hpieces.trans hone)]
  · intro hmany
    by_cases hsingle : f.keptTexts g = [",".intercalate (f.keptTexts g)]
    · -- The one value has a comma in it, and may be taken for two values.
      obtain ⟨text, hkept⟩ : ∃ text, f.keptTexts g = [text] := ⟨_, hsingle⟩
      have hcomma : ',' ∈ text.toList := by
        by_contra hcomma
        rw [pieces, hkept, List.flatMap_singleton, Query.pieces_of_no_comma hcomma] at hmany
        simp at hmany
      obtain ⟨before, after, hchars, -⟩ := List.eq_append_cons_of_mem hcomma
      have htext : text = String.ofList before ++ "," ++ String.ofList after := by
        rw [← String.toList_inj, hchars]
        simp
      have hblank := hunblank text (by rw [hkept]; exact List.mem_singleton_self text)
      rw [Text.hasBlank, hchars, List.any_append, List.any_cons, Bool.or_eq_false_iff,
        Bool.or_eq_false_iff] at hblank
      have hparts : ∀ part ∈ [String.ofList before, String.ofList after],
          Text.hasBlank part = false := by
        simp only [List.forall_mem_cons, Text.hasBlank, String.toList_ofList]
        exact ⟨hblank.1, hblank.2.2, by simp⟩
      obtain ⟨f', c', hlist', hclause', hsame, hkept'⟩ :=
        hlist.exists_alike hexempt hclause (String.ofList before) [String.ofList after] hparts
          (by rw [hkept, String.intercalate_singleton, htext]; simp)
      refine ⟨f', c', hlist', hclause', hsame, ?_⟩
      rw [hkept', hkept]
      simp
    · -- Several values may be taken for one value with commas in it.
      obtain ⟨f', c', hlist', hclause', hsame, hkept'⟩ :=
        hlist.exists_alike hexempt hclause (",".intercalate (f.keptTexts g)) []
          (by simpa using hjoined) (by simp)
      exact ⟨f', c', hlist', hclause', hsame, fun hkept => hsingle (hkept.symm.trans hkept')⟩

end Filter

namespace Grammar

/-- How far the lists of a field can be told apart by their clauses. -/
structure TellsLists (g : Grammar) (field : String) : Prop where
  /-- A list is refused if all its values hold blanks, and for nothing else. -/
  refused : ∀ f : Filter, f.ListOn field → ((∃ e, g.clause f = .error e) ↔
    ∀ value ∈ f.condition.values, Text.hasBlank value.text = true)
  /-- Otherwise the values without blanks are written with commas between, and the others are
  reported. -/
  written : ∀ (f : Filter) c, f.ListOn field → g.clause f = .ok c →
    f.keptTexts g = (f.condition.values.map Scalar.text).filter (fun text => !Text.hasBlank text) ∧
    c.text = Query.signed f.negated (f.field ++ ": " ++ ",".intercalate (f.keptTexts g)) ∧
    c.dropped = if f.lost g = [] then none else some (f.report g)
  /-- Two lists have the same text exactly if their field is spelled alike, they are negated alike
  and they have the same pieces between their commas. -/
  text_eq_iff : ∀ (f f' : Filter) c c', f.ListOn field → f'.ListOn field →
    g.clause f = .ok c → g.clause f' = .ok c' → (c.text = c'.text ↔
      f.field = f'.field ∧ f.negated = f'.negated ∧ f.pieces g = f'.pieces g)
  /-- Lists without commas in their values are told apart. -/
  apart : ∀ (f f' : Filter) c c', f.ListOn field → f'.ListOn field →
    g.clause f = .ok c → g.clause f' = .ok c' →
    (∀ text ∈ f.keptTexts g ++ f'.keptTexts g, ',' ∉ text.toList) → c.text = c'.text →
      f.negated = f'.negated ∧ f.keptTexts g = f'.keptTexts g
  /-- A list is written like a list of other values exactly if its clause has a comma behind the
  colon. -/
  shared_iff : ∀ (f : Filter) c, f.ListOn field → g.clause f = .ok c →
    ((∃ f' c', f'.ListOn field ∧ g.clause f' = .ok c' ∧ c'.text = c.text ∧
      f'.keptTexts g ≠ f.keptTexts g) ↔ 2 ≤ (f.pieces g).length)
  /-- A value with a comma in it is sent as the two values around the comma. -/
  merged : ∀ negate operator before after,
    Text.hasBlank before = false → Text.hasBlank after = false →
    ∃ c, g.clause ⟨field, negate, .member operator (.str (before ++ "," ++ after)) []⟩ = .ok c ∧
      g.clause ⟨field, negate, .member operator (.str before) [.str after]⟩ = .ok c

/-- The clauses of an exempt field tell its lists apart as far as no commas stand in the values. -/
theorem clause_tellsLists {g : Grammar} {field : String} (hexempt : g.isExempt field = true) :
    g.TellsLists field where
  refused f hlist := hlist.clause_eq_error_iff hexempt
  written f c hlist hclause := by
    obtain ⟨-, rfl⟩ := (hlist.clause_eq_ok_iff hexempt).1 hclause
    exact ⟨hlist.keptTexts_eq hexempt, (Query.signed_atom _ _ _).symm, rfl⟩
  text_eq_iff f f' c c' hlist hlist' := hlist.text_eq_iff hexempt hlist'
  apart f f' c c' hlist hlist' hclause hclause' hcomma htext := by
    obtain ⟨-, hnegated, hpieces⟩ := (hlist.text_eq_iff hexempt hlist' hclause hclause').1 htext
    rw [List.forall_mem_append] at hcomma
    rw [Filter.pieces, Filter.pieces, Query.flatMap_pieces_of_no_comma hcomma.1,
      Query.flatMap_pieces_of_no_comma hcomma.2] at hpieces
    exact ⟨hnegated, hpieces⟩
  shared_iff f c hlist := hlist.shared_iff hexempt
  merged negate operator before after hbefore hafter := by
    have hjoined : Text.hasBlank (before ++ "," ++ after) = false := by
      have hcomma : Text.isBlank ',' = false := by decide
      simp only [Text.hasBlank] at hbefore hafter
      simp [Text.hasBlank, hbefore, hafter, hcomma]
    have hone := (Filter.clause_of_texts hexempt negate operator (before ++ "," ++ after) []
      (by simpa using hjoined)).2
    have htwo := (Filter.clause_of_texts hexempt negate operator before [after]
      (by simp [hbefore, hafter])).2
    refine ⟨_, hone, ?_⟩
    rw [String.intercalate_singleton]
    exact htwo

/-- Two negated lists, one of which loses a value and one of which has a comma in its value. -/
def openOrDone : List Filter := [
  ⟨"State", true, .member .isIn (.str "Open") [.str "In Progress", .str "Done"]⟩,
  ⟨"State", false, .member .notIn (.str "Open,Done") []⟩]

/-- Both lists are written, with one text, so that they are negated alike and have the same
pieces. -/
theorem clause_tellsLists_openOrDone :
    ({} : Grammar).isExempt "state" = true ∧
    openOrDone.map ({} : Grammar).clause = [
      .ok ⟨"-State: Open,Done", some ⟨"State", ["In Progress"], ["Open", "Done"]⟩⟩,
      .ok ⟨"-State: Open,Done", none⟩] ∧
    openOrDone.map (Filter.keptTexts {}) = [["Open", "Done"], ["Open,Done"]] ∧
    ∀ f ∈ openOrDone, f.negated = true ∧ f.pieces {} = ["Open", "Done"] := by
  have hexempt : ({} : Grammar).isExempt "state" = true := by decide +kernel
  have hclauses : openOrDone.map ({} : Grammar).clause = [
      .ok ⟨"-State: Open,Done", some ⟨"State", ["In Progress"], ["Open", "Done"]⟩⟩,
      .ok ⟨"-State: Open,Done", none⟩] := by decide +kernel
  refine ⟨hexempt, hclauses, by decide +kernel, ?_⟩
  obtain ⟨hfirst, hsecond, -⟩ : ({} : Grammar).clause openOrDone[0] = _ ∧
      ({} : Grammar).clause openOrDone[1] = _ ∧ True := by simpa [openOrDone] using hclauses
  have hspelled : Text.lower "State" = Text.lower "state" := by decide +kernel
  obtain ⟨-, hnegated, hpieces⟩ := ((clause_tellsLists hexempt).text_eq_iff openOrDone[0]
    openOrDone[1] _ _ ⟨hspelled, _, _, _, rfl⟩ ⟨hspelled, _, _, _, rfl⟩ hfirst hsecond).1 rfl
  have hown : openOrDone[0].negated = true ∧ openOrDone[0].pieces {} = ["Open", "Done"] := by
    decide +kernel
  intro f hf
  rcases List.mem_pair.1 hf with rfl | rfl
  · exact hown
  · exact ⟨hnegated.symm.trans hown.1, hpieces.symm.trans hown.2⟩

/-- Lists of other values that are written alike: a comma inside a value and one between values, a
comma at the end of a value and an empty value behind it, a comma by itself and two empty values. -/
theorem clause_mergesLists :
    ({} : Grammar).clause ⟨"state", false, .member .isIn (.str "Open,Done") []⟩ =
      ({} : Grammar).clause ⟨"state", false, .member .isIn (.str "Open") [.str "Done"]⟩ ∧
    ({} : Grammar).clause ⟨"state", false, .member .isIn (.str "Open,") []⟩ =
      ({} : Grammar).clause ⟨"state", false, .member .isIn (.str "Open") [.str ""]⟩ ∧
    ({} : Grammar).clause ⟨"state", false, .member .notIn (.str ",") []⟩ =
      ({} : Grammar).clause ⟨"state", false, .member .notIn (.str "") [.str ""]⟩ := by
  refine ⟨?_, ?_, ?_⟩ <;> decide +kernel

end Grammar

end IssueSearch
