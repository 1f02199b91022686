import IssueSearch.Proofs.Query.Negation
/-!
The warning that no scope is given, beside the query that is made of the request. The checks ask for
a filter on the scope field whose mark of negation is not set. Whether the clause of that filter has
a dash depends on its operator as well: a list of values to keep out has one, and loses it when the
filter is marked. Where no filter on the scope field has such an operator the checks and the query
agree; where one has, the warning may be missing from a request for everything outside a project,
and given for one that is restricted to a project.
-/
namespace IssueSearch

open Validation (noScope)

/-- A filter on the field that restricts a search. -/
def Filter.OnScope (g : Grammar) (f : Filter) : Prop :=
  Text.lower f.field = Text.lower g.scopeField

/-- A filter that is written without a dash, if it can be written. -/
def Filter.Affirms (g : Grammar) (f : Filter) : Prop :=
  ∀ c, g.clause f = .ok c → (f.formula g).hasDash = false

/-- A request with a scope, or with a filter on the scope field that is written without a dash. -/
def Request.Restricted (g : Grammar) (r : Request) : Prop :=
  Query.nonempty? r.scopeId ≠ none ∨ ∃ f ∈ r.filters, f.OnScope g ∧ f.Affirms g

variable {g : Grammar} {f : Filter} {c : Clause} {r : Request} {settings : Validation.Settings}

theorem Query.any_negated_each {negated : Bool} {atoms : List Query.Atom} (hne : atoms ≠ []) :
    (Query.each negated atoms).any Query.Part.negated = negated := by
  cases negated with
  | true =>
      obtain ⟨atom, hatom⟩ := List.exists_mem_of_ne_nil atoms hne
      rw [Query.each, List.any_map, List.any_eq_true]
      exact ⟨atom, hatom, rfl⟩
  | false =>
      rw [Query.each, List.any_map, List.any_eq_false]
      exact fun _ _ => Bool.false_ne_true

/-- A clause has a dash exactly if its filter is negated by its mark or by its operator, but not by
both. -/
theorem Grammar.Writes.hasDash_eq (hwrites : g.Writes f c) :
    (f.formula g).hasDash = f.negated := by
  cases hwrites with
  | compare written => exact Query.any_negated_each (List.cons_ne_nil _ _)
  | @list field negate operator first rest texts ordinary written =>
      have hkept : Filter.kept g ⟨field, negate, .member operator first rest⟩ = first :: rest :=
        Filter.kept_eq_values (.inl ordinary)
      have hasked : Filter.asked g ⟨field, negate, .member operator first rest⟩ ≠ [] := by
        simp only [Filter.asked, hkept]
        exact List.cons_ne_nil _ _
      simp only [Filter.formula, ordinary, Bool.false_eq_true, if_false]
      cases Filter.negated ⟨field, negate, .member operator first rest⟩ with
      | true => exact Query.any_negated_each hasked
      | false => exact Query.any_negated_each hasked
  | kept exempt written =>
      simp [Filter.formula, exempt, Query.Formula.hasDash, Query.Formula.parts]
  | between writtenLow writtenHigh => exact Query.any_negated_each (List.cons_ne_nil _ _)
  | presence => exact Query.any_negated_each (List.cons_ne_nil _ _)

theorem Filter.affirms_iff :
    f.Affirms g ↔ f.negated = false ∨ ∀ c, g.clause f ≠ .ok c := by
  cases hclause : g.clause f with
  | error e =>
      refine iff_of_true (fun c hc => ?_) (.inr nofun)
      rw [hclause] at hc
      cases hc
  | ok c =>
      have hdash := (Grammar.clause_eq_ok_iff.1 hclause).hasDash_eq
      constructor
      · intro haffirms
        exact .inl (hdash.symm.trans (haffirms c hclause))
      · rintro (hpositive | hrefused) c' _
        · exact hdash.trans hpositive
        · exact absurd rfl (hrefused c)

theorem Filter.not_affirms_iff :
    ¬ f.Affirms g ↔ f.operator.negates = !f.negate ∧ ∃ c, g.clause f = .ok c := by
  have hnegated : ¬ f.negated = false ↔ f.operator.negates = !f.negate := by
    rw [negated]
    cases f.negate <;> cases f.operator.negates <;> decide
  rw [affirms_iff, not_or, hnegated]
  simp

/-- Where the operator is no negation, a filter has no dash exactly if it is not marked. -/
theorem Filter.affirms_iff_of_plain (hplain : f.operator.negates = false)
    (hwritten : f.negate = true → ∃ c, g.clause f = .ok c) : f.Affirms g ↔ f.negate = false := by
  rw [affirms_iff, negated_of_plain hplain, or_iff_left_of_imp]
  intro hrefused
  rw [← Bool.not_eq_true]
  intro hmark
  obtain ⟨c, hclause⟩ := hwritten hmark
  exact hrefused c hclause

theorem Request.not_restricted_iff : ¬ r.Restricted g ↔ Query.nonempty? r.scopeId = none ∧
    ∀ f ∈ r.filters, f.OnScope g →
      f.operator.negates = !f.negate ∧ ∃ c, g.clause f = .ok c := by
  rw [Restricted, not_or, not_not]
  simp only [not_exists, not_and, Filter.not_affirms_iff]

theorem Query.nonempty?_eq_none_iff {text : Option String} :
    nonempty? text = none ↔ text.any (fun s => !s.isEmpty) = false := by
  cases text with
  | none => exact iff_of_true rfl rfl
  | some s => simp [nonempty?, Option.filter]

namespace Validation

/-- The checks warn exactly if a request has no scope and every filter on the scope field is marked
as negated. -/
theorem noScope_mem_iff (hsame : settings.scopeField = g.scopeField) :
    noScope ∈ (ofRequest settings r).warnings ↔
      Query.nonempty? r.scopeId = none ∧ ∀ f ∈ r.filters, f.OnScope g → f.negate = true := by
  have hlarge : noScope ∉ if isLarge settings r then [largeLimit] else [] := by
    split
    · decide
    · exact List.not_mem_nil
  have hfilters : (r.filters.any fun f =>
      Text.lower f.field == Text.lower settings.scopeField && !f.negate) = false ↔
      ∀ f ∈ r.filters, f.OnScope g → f.negate = true := by
    simp [Filter.OnScope, hsame]
  rw [Query.nonempty?_eq_none_iff, ← hfilters, ← Bool.or_eq_false_iff, ← isScoped]
  simp only [ofRequest, List.mem_append, hlarge, or_false]
  cases isScoped settings r with
  | true => exact iff_of_false List.not_mem_nil nofun
  | false => exact iff_of_true (List.mem_singleton_self _) rfl

/-- The warning of a missing scope beside the query of the request. -/
structure ScopeWarning (settings : Settings) (g : Grammar) (r : Request) : Prop where
  /-- What the checks go by. -/
  omitted_iff : noScope ∉ (ofRequest settings r).warnings ↔
    Query.nonempty? r.scopeId ≠ none ∨ ∃ f ∈ r.filters, f.OnScope g ∧ f.negate = false
  /-- What the query goes by. -/
  written : ∀ f ∈ r.filters, ∀ c, g.clause f = .ok c → c.text = (f.formula g).text ∧
    (f.formula g).hasDash = (f.negate != f.operator.negates)
  /-- They agree where no filter on the scope field is negated by its operator, unless a filter
  cannot be written. -/
  agrees : (∀ f ∈ r.filters, f.OnScope g →
      f.operator.negates = false ∧ (f.negate = true → ∃ c, g.clause f = .ok c)) →
    (noScope ∉ (ofRequest settings r).warnings ↔ r.Restricted g)
  /-- When the warning is missing. -/
  missing_iff : noScope ∉ (ofRequest settings r).warnings ∧ ¬ r.Restricted g ↔
    Query.nonempty? r.scopeId = none ∧
      (∃ f ∈ r.filters, f.OnScope g ∧ f.negate = false ∧ f.operator.negates = true) ∧
      ∀ f ∈ r.filters, f.OnScope g →
        f.operator.negates = !f.negate ∧ ∃ c, g.clause f = .ok c
  /-- When it is given for nothing. -/
  needless_iff : noScope ∈ (ofRequest settings r).warnings ∧ r.Restricted g ↔
    Query.nonempty? r.scopeId = none ∧ (∀ f ∈ r.filters, f.OnScope g → f.negate = true) ∧
      ∃ f ∈ r.filters, f.OnScope g ∧ (f.operator.negates = true ∨ ∀ c, g.clause f ≠ .ok c)

theorem ofRequest_scopeWarning (hsame : settings.scopeField = g.scopeField) :
    ScopeWarning settings g r := by
  have homitted : noScope ∉ (ofRequest settings r).warnings ↔
      Query.nonempty? r.scopeId ≠ none ∨ ∃ f ∈ r.filters, f.OnScope g ∧ f.negate = false := by
    rw [noScope_mem_iff hsame, not_and_or]
    simp
  refine ⟨homitted, ?_, ?_, ?_, ?_⟩
  · intro f _ c hclause
    have hwrites := Grammar.clause_eq_ok_iff.1 hclause
    exact ⟨hwrites.text_eq, hwrites.hasDash_eq⟩
  · intro hplain
    rw [homitted, Request.Restricted]
    refine or_congr Iff.rfl (exists_congr fun f => and_congr_right fun hf => ?_)
    refine and_congr_right fun hscope => ?_
    obtain ⟨hoperator, hwritten⟩ := hplain f hf hscope
    exact (Filter.affirms_iff_of_plain hoperator hwritten).symm
  · rw [homitted, Request.not_restricted_iff]
    constructor
    · rintro ⟨hscoped | ⟨f, hf, hscope, hmark⟩, hnone, hdashes⟩
      · exact absurd hnone hscoped
      · have hoperator : f.operator.negates = true := by rw [(hdashes f hf hscope).1, hmark]; rfl
        exact ⟨hnone, ⟨f, hf, hscope, hmark, hoperator⟩, hdashes⟩
    · rintro ⟨hnone, ⟨f, hf, hscope, hmark, -⟩, hdashes⟩
      exact ⟨.inr ⟨f, hf, hscope, hmark⟩, hnone, hdashes⟩
  · rw [noScope_mem_iff hsame, Request.Restricted]
    constructor
    · rintro ⟨⟨hnone, hmarks⟩, hscoped | ⟨f, hf, hscope, haffirms⟩⟩
      · exact absurd hnone hscoped
      · refine ⟨hnone, hmarks, f, hf, hscope, ?_⟩
        refine (Filter.affirms_iff.1 haffirms).imp_left fun hpositive => ?_
        rw [Filter.negated, hmarks f hf hscope] at hpositive
        simpa using hpositive
    · rintro ⟨hnone, hmarks, f, hf, hscope, hcause⟩
      refine ⟨⟨hnone, hmarks⟩, .inr ⟨f, hf, hscope, Filter.affirms_iff.2 ?_⟩⟩
      refine hcause.imp_left fun hoperator => ?_
      rw [Filter.negated, hmarks f hf hscope, hoperator]
      rfl

/-- Everything outside one project. -/
def outsideProject : Request where
  filters := [⟨"Project", false, .member .notIn (.str "YTM") []⟩]

/-- What is not outside a project. -/
def notOutside : Request where
  filters := [⟨"Project", true, .member .notIn (.str "YTM") []⟩]

/-- A request for what is outside a project is not warned of, and one that is restricted to it
is. -/
theorem ofRequest_scopeWarning_outside :
    ({} : Settings).scopeField = ({} : Grammar).scopeField ∧
    Query.ofRequest {} outsideProject = .ok ⟨"-Project: YTM", none, []⟩ ∧
    (noScope ∉ (ofRequest {} outsideProject).warnings ∧ ¬ outsideProject.Restricted {}) ∧
    Query.ofRequest {} notOutside = .ok ⟨"Project: YTM", none, []⟩ ∧
    noScope ∈ (ofRequest {} notOutside).warnings ∧ notOutside.Restricted {} := by
  have hsame : ({} : Settings).scopeField = ({} : Grammar).scopeField := rfl
  have hlower : Text.lower "Project" = Text.lower "project" := by decide +kernel
  have hscope : ∀ negate,
      Filter.OnScope {} ⟨"Project", negate, .member .notIn (.str "YTM") []⟩ := fun _ => hlower
  have hclause : ∃ c, ({} : Grammar).clause
      ⟨"Project", false, .member .notIn (.str "YTM") []⟩ = .ok c :=
    ⟨{ text := "-Project: YTM" }, by decide +kernel⟩
  refine ⟨hsame, by decide +kernel, ?_, by decide +kernel, ?_⟩
  · rw [(ofRequest_scopeWarning hsame).missing_iff]
    refine ⟨rfl, ⟨_, List.mem_singleton_self _, hscope false, rfl, rfl⟩, ?_⟩
    intro f hf _
    obtain rfl := List.mem_singleton.1 hf
    exact ⟨rfl, hclause⟩
  · rw [(ofRequest_scopeWarning hsame).needless_iff]
    refine ⟨rfl, ?_, _, List.mem_singleton_self _, hscope true, .inl rfl⟩
    intro f hf _
    obtain rfl := List.mem_singleton.1 hf
    rfl

end Validation
end IssueSearch
