import IssueSearch.Proofs.Query.Clauses
import IssueSearch.Proofs.Request.Alike
import IssueSearch.Search.Step
/-!
Compiling looks at the values of filters only through their texts, so requests that are alike have
one query and ask the backend for one page. It looks at the grammar only through the field of the
scope and the kinds of the filters' fields, so grammars that agree on these make one query.
-/
namespace IssueSearch

variable {g : Grammar}

theorem Scalar.map_text_congr {values values' : List Scalar}
    (halike : List.Forall₂ Scalar.Alike values values') :
    values.map Scalar.text = values'.map Scalar.text := by
  induction halike with
  | nil => rfl
  | cons hvalue _ ih => rw [List.map_cons, List.map_cons, hvalue.text_eq, ih]

theorem Scalar.written_congr {write : String → Option String} {values values' : List Scalar}
    (halike : List.Forall₂ Scalar.Alike values values') {texts : List String}
    (hwritten : List.Forall₂ (fun value text => write value.text = some text) values texts) :
    List.Forall₂ (fun value text => write value.text = some text) values' texts := by
  induction halike generalizing texts with
  | nil => exact hwritten
  | cons hvalue _ ih =>
      obtain ⟨text, rest, htext, hrest, rfl⟩ := List.forall₂_cons_left_iff.1 hwritten
      rw [hvalue.text_eq] at htext
      exact .cons htext (ih hrest)

theorem Grammar.exemptClause_congr {field : String} {operator : Membership} {negated : Bool}
    {values values' : List Scalar} {c : Clause}
    (htexts : values.map Scalar.text = values'.map Scalar.text)
    (hclause : exemptClause field operator negated values = .ok c) :
    exemptClause field operator negated values' = .ok c := by
  simp only [exemptClause, ← htexts] at hclause ⊢
  split at hclause
  · cases hclause
  · rename_i hkept
    rw [if_neg hkept]
    exact hclause

theorem Grammar.clause_congr {f f' : Filter} {c : Clause} (halike : Filter.Alike f f')
    (hclause : g.clause f = .ok c) : g.clause f' = .ok c := by
  rcases f' with ⟨field', negate', condition'⟩
  rcases halike with ⟨hfield, hnegate, hoperator, hvalues⟩
  rw [clause_eq_ok_iff] at hclause ⊢
  cases hclause with
  | compare written =>
      rcases condition' with ⟨_, _ | value'⟩ | _ | _ | _ <;> cases hoperator
      · cases hvalues
      · cases hfield
        cases hnegate
        obtain ⟨hvalue, -⟩ := List.forall₂_cons.1 hvalues
        exact .compare (by rwa [← hvalue.text_eq])
  | list ordinary written =>
      rcases condition' with _ | _ | _ | _ <;> cases hoperator
      cases hfield
      cases hnegate
      exact .list ordinary (Scalar.written_congr hvalues written)
  | kept exempt written =>
      rcases condition' with _ | _ | _ | _ <;> cases hoperator
      cases hfield
      cases hnegate
      exact .kept exempt (exemptClause_congr (Scalar.map_text_congr hvalues) written)
  | between writtenLow writtenHigh =>
      rcases condition' with _ | _ | ⟨low', high'⟩ | _ <;> cases hoperator
      cases hfield
      cases hnegate
      obtain ⟨hlow, hrest⟩ := List.forall₂_cons.1 hvalues
      obtain ⟨hhigh, -⟩ := List.forall₂_cons.1 hrest
      exact .between (by rwa [← hlow.text_eq]) (by rwa [← hhigh.text_eq])
  | presence =>
      rcases condition' with _ | _ | _ | _ <;> cases hoperator
      cases hfield
      cases hnegate
      exact .presence

/-- Requests that are alike have one query. -/
theorem Query.ofRequest_congr {r r' : Request} {query : Query} (halike : Request.Alike r r')
    (hcompiled : ofRequest g r = .ok query) : ofRequest g r' = .ok query := by
  rw [ofRequest_eq_ok_iff] at hcompiled ⊢
  obtain ⟨cs, hcs, rfl⟩ := hcompiled
  refine ⟨cs, ?_, ?_⟩
  · have hfilters := halike.filters
    generalize r.filters = filters at hfilters hcs
    generalize r'.filters = filters' at hfilters
    induction hfilters generalizing cs with
    | nil => exact hcs
    | cons hfilter _ ih =>
        obtain ⟨c, rest, hc, hrest, rfl⟩ := List.forall₂_cons_left_iff.1 hcs
        exact .cons (Grammar.clause_congr hfilter hc) (ih rest hrest)
  · rw [scopePart, textPart, halike.scopeId, halike.textSearch, halike.sorting]
    rfl

/-- Grammars that agree on what compiling a request looks at. -/
structure Grammar.AgreeOn (g g' : Grammar) (r : Request) : Prop where
  scopeField : Query.nonempty? r.scopeId ≠ none → g.scopeField = g'.scopeField
  kind : ∀ f ∈ r.filters, g.kind f.field = g'.kind f.field

section Agreement

variable {g' : Grammar} {field : String}

theorem Grammar.isExempt_eq_kind (g : Grammar) (field : String) :
    g.isExempt field = (g.kind field == .exempt) := by
  rw [kind]
  cases g.isExempt field with
  | true => rfl
  | false => cases (g.unquotedFields.map Text.lower).contains (Text.lower field) <;> rfl

theorem Grammar.writeFor_of_kind (hkind : g.kind field = g'.kind field) :
    g.writeFor field = g'.writeFor field := by
  funext operator rangeBound value
  rw [writeFor, writeFor, write?, write?, hkind]

theorem Grammar.clause_of_kind {f : Filter} (hkind : g.kind f.field = g'.kind f.field) :
    g.clause f = g'.clause f := by
  have hexempt : g.isExempt f.field = g'.isExempt f.field := by
    rw [isExempt_eq_kind, isExempt_eq_kind, hkind]
  rw [clause, clause, writeFor_of_kind hkind, hexempt]

theorem Query.clauses_of_kind {filters : List Filter}
    (hkinds : ∀ f ∈ filters, g.kind f.field = g'.kind f.field) :
    clauses g filters = clauses g' filters := by
  induction filters with
  | nil => rfl
  | cons f rest ih =>
      rw [clauses, clauses, Grammar.clause_of_kind (hkinds f List.mem_cons_self),
        ih fun other hother => hkinds other (List.mem_cons_of_mem _ hother)]

/-- Grammars that agree on a request make one query of it, or fail alike. -/
theorem Query.ofRequest_of_agreeOn {r : Request} (hagree : g.AgreeOn g' r) :
    ofRequest g r = ofRequest g' r := by
  have hscope : scopePart g r = scopePart g' r := by
    rw [scopePart, scopePart]
    cases hfound : nonempty? r.scopeId with
    | none => rfl
    | some scope => rw [hagree.scopeField (by simp [hfound])]
  rw [ofRequest, ofRequest, compile, compile, clauses_of_kind hagree.kind, hscope]

end Agreement

/-- Requests that are alike ask the backend for one page. -/
theorem Search.backendCall_congr {search : Search} {r r' : Request} (query : Query)
    (halike : Request.Alike r r') : search.backendCall r query = search.backendCall r' query := by
  rw [backendCall, backendCall, fields, fields, limit, limit, halike.fieldSelector,
    halike.pagination]

end IssueSearch
