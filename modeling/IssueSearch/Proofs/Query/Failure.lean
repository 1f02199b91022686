import IssueSearch.Proofs.Query.Clauses
import IssueSearch.Validation
/-!
When a request cannot be compiled. A filter is refused if it has no value, or if its field is exempt
and a value has blanks: the one value of a comparison, a bound of a range, or all values of a list.
The error is that of the first filter that is refused, and tells its field, its operator and the
value to blame. Of these, the checks find a missing value; a request that passes them fails only for
blanks in values of exempt fields.
-/
namespace IssueSearch

namespace Grammar

variable {g : Grammar} {f : Filter} {e : ClauseError}

/-- Why a filter has no clause, by the shape of the filter. -/
inductive Refuses (g : Grammar) : Filter → ClauseError → Prop
  | noValue {field : String} {negate : Bool} {operator : Comparison} :
      Refuses g ⟨field, negate, .compare operator none⟩ (.noValue field operator)
  | compare {field : String} {negate : Bool} {operator : Comparison} {value : Scalar}
      (exempt : g.isExempt field = true) (blank : Text.hasBlank value.text = true) :
      Refuses g ⟨field, negate, .compare operator (some value)⟩
        (.blankValue field (some (.compare operator)) value)
  | low {field : String} {negate : Bool} {low high : Scalar} (exempt : g.isExempt field = true)
      (blank : Text.hasBlank low.text = true) :
      Refuses g ⟨field, negate, .between low high⟩ (.blankValue field (some .between) low)
  | high {field : String} {negate : Bool} {low high : Scalar} (exempt : g.isExempt field = true)
      (unblank : Text.hasBlank low.text = false) (blank : Text.hasBlank high.text = true) :
      Refuses g ⟨field, negate, .between low high⟩ (.blankValue field (some .between) high)
  | list {field : String} {negate : Bool} {operator : Membership} {first : Scalar}
      {rest : List Scalar} (exempt : g.isExempt field = true)
      (blank : ∀ value ∈ first :: rest, Text.hasBlank value.text = true) :
      Refuses g ⟨field, negate, .member operator first rest⟩
        (.allBlank field operator (first :: rest))

theorem exemptClause_eq_error_iff {field : String} {operator : Membership} {negated : Bool}
    {values : List Scalar} : exemptClause field operator negated values = .error e ↔
      (∀ value ∈ values, Text.hasBlank value.text = true) ∧
        e = .allBlank field operator values := by
  have hnone : ((values.map Scalar.text).filter fun text => !Text.hasBlank text).isEmpty = true ↔
      ∀ value ∈ values, Text.hasBlank value.text = true := by
    simp
  rw [← hnone]
  simp only [exemptClause]
  split
  · rename_i hempty
    rw [Except.error.injEq]
    exact ⟨fun heq => ⟨hempty, heq.symm⟩, fun heq => heq.2.symm⟩
  · rename_i hsome
    exact iff_of_false nofun fun heq => hsome heq.1

/-- A filter has no clause exactly when it is refused for its shape. -/
theorem clause_eq_error_iff : g.clause f = .error e ↔ g.Refuses f e := by
  rcases f with ⟨field, negate, condition⟩
  constructor
  · intro hclause
    rcases condition with ⟨operator, _ | value⟩ | ⟨operator, first, rest⟩ | ⟨low, high⟩ | operator
    · obtain rfl := Except.error.inj hclause
      exact .noValue
    · rcases bind_eq_error_iff.1 hclause with hvalue | ⟨text, -, hdone⟩
      · obtain ⟨hexempt, hblank, rfl⟩ := writeFor_eq_error_iff.1 hvalue
        exact .compare hexempt hblank
      · cases hdone
    · simp only [clause] at hclause
      split at hclause
      · rename_i hexempt
        obtain ⟨hblank, rfl⟩ := exemptClause_eq_error_iff.1 hclause
        exact .list hexempt hblank
      · rename_i hordinary
        rcases bind_eq_error_iff.1 hclause with hvalues | ⟨texts, -, hdone⟩
        · obtain ⟨value, -, hvalue⟩ := exists_of_mapM_eq_error hvalues
          exact absurd (writeFor_eq_error_iff.1 hvalue).1 hordinary
        · cases hdone
    · rcases bind_eq_error_iff.1 hclause with hlow | ⟨lowText, hlow, hrest⟩
      · obtain ⟨hexempt, hblank, rfl⟩ := writeFor_eq_error_iff.1 hlow
        exact .low hexempt hblank
      · rcases bind_eq_error_iff.1 hrest with hhigh | ⟨highText, -, hdone⟩
        · obtain ⟨hexempt, hblank, rfl⟩ := writeFor_eq_error_iff.1 hhigh
          refine .high hexempt (Bool.eq_false_iff.2 fun hlowBlank => ?_) hblank
          rw [writeFor_eq_ok_iff, write?_eq_none_iff.2 ⟨hexempt, hlowBlank⟩] at hlow
          cases hlow
        · cases hdone
    · cases hclause
  · intro hrefuses
    cases hrefuses with
    | noValue => rfl
    | compare exempt blank =>
        exact bind_eq_error_iff.2 (.inl (writeFor_eq_error_iff.2 ⟨exempt, blank, rfl⟩))
    | low exempt blank =>
        exact bind_eq_error_iff.2 (.inl (writeFor_eq_error_iff.2 ⟨exempt, blank, rfl⟩))
    | @high field negate low high exempt unblank blank =>
        obtain ⟨lowText, hlow⟩ : ∃ lowText, g.write? field true low.text = some lowText := by
          rw [← Option.ne_none_iff_exists', ne_eq, write?_eq_none_iff, unblank]
          simp
        refine bind_eq_error_iff.2 (.inr ⟨lowText, writeFor_eq_ok_iff.2 hlow, ?_⟩)
        exact bind_eq_error_iff.2 (.inl (writeFor_eq_error_iff.2 ⟨exempt, blank, rfl⟩))
    | list exempt blank =>
        simp only [clause]
        rw [exempt, if_pos rfl]
        exact exemptClause_eq_error_iff.2 ⟨blank, rfl⟩

/-- A filter with a value is refused only for blanks in a value of an exempt field. -/
theorem Refuses.blank (hrefuses : g.Refuses f e) (hvalue : Validation.lacksValue f = false) :
    g.isExempt f.field = true ∧
      ∃ value ∈ f.condition.values, Text.hasBlank value.text = true := by
  cases hrefuses with
  | noValue => cases hvalue
  | compare exempt blank => exact ⟨exempt, _, List.mem_singleton_self _, blank⟩
  | low exempt blank => exact ⟨exempt, _, List.mem_cons_self, blank⟩
  | high exempt unblank blank =>
      exact ⟨exempt, _, List.mem_cons_of_mem _ (List.mem_singleton_self _), blank⟩
  | list exempt blank => exact ⟨exempt, _, List.mem_cons_self, blank _ List.mem_cons_self⟩

end Grammar

namespace Validation

end Validation

namespace Query

theorem exists_clause_iff {g : Grammar} {f : Filter} :
    (∃ c, g.clause f = .ok c) ↔ ∀ e, ¬ g.Refuses f e := by
  cases hclause : g.clause f with
  | ok c =>
      refine iff_of_true ⟨c, rfl⟩ fun e hrefuses => ?_
      rw [← Grammar.clause_eq_error_iff, hclause] at hrefuses
      cases hrefuses
  | error e =>
      refine iff_of_false nofun fun hnone => ?_
      exact hnone e (Grammar.clause_eq_error_iff.1 hclause)

/-- Two filters are refused, and the first of them decides, although the checks find only the
second. -/
example : ofRequest {} { filters := [⟨"type", false, .compare .equals (some (.str "Bug"))⟩,
      ⟨"State", false, .between (.str "Open") (.str "In Progress")⟩,
      ⟨"summary", true, .compare .contains none⟩] } =
    .error (.blankValue "State" (some .between) (.str "In Progress")) := by
  decide +kernel

end Query
end IssueSearch
