import IssueSearch.Query.Compile
import Mathlib.Data.List.Forall2
/-!
What it takes for a filter to have a clause and for a request to have a query, as relations between
lists: a request compiles when every filter has a clause, and its parts are the clauses in order.
-/
namespace IssueSearch

theorem exists_mem_of_forall₂ {α β : Type} {r : α → β → Prop} {xs : List α} {ys : List β}
    (hrel : List.Forall₂ r xs ys) {y : β} (hy : y ∈ ys) : ∃ x ∈ xs, r x y := by
  induction hrel with
  | nil => cases hy
  | @cons x first xs ys hown _ ih =>
      rcases List.mem_cons.1 hy with rfl | hrest
      · exact ⟨x, List.mem_cons_self, hown⟩
      · obtain ⟨x', hx', hrel'⟩ := ih hrest
        exact ⟨x', List.mem_cons_of_mem _ hx', hrel'⟩

theorem exists_forall₂ {α β : Type} {r : α → β → Prop} {xs : List α}
    (heach : ∀ x ∈ xs, ∃ y, r x y) : ∃ ys, List.Forall₂ r xs ys := by
  induction xs with
  | nil => exact ⟨[], .nil⟩
  | cons x xs ih =>
      obtain ⟨y, hy⟩ := heach x List.mem_cons_self
      obtain ⟨ys, hys⟩ := ih fun x' hx' => heach x' (List.mem_cons_of_mem _ hx')
      exact ⟨y :: ys, .cons hy hys⟩

theorem bind_eq_ok_iff {ε α β : Type} {x : Except ε α} {f : α → Except ε β} {b : β} :
    x >>= f = .ok b ↔ ∃ a, x = .ok a ∧ f a = .ok b := by
  cases x with
  | error e =>
      refine iff_of_false nofun ?_
      rintro ⟨a, ha, -⟩
      cases ha
  | ok a =>
      constructor
      · intro heq
        exact ⟨a, rfl, heq⟩
      · rintro ⟨a', ha, heq⟩
        obtain rfl := Except.ok.inj ha
        exact heq

theorem bind_eq_error_iff {ε α β : Type} {x : Except ε α} {f : α → Except ε β} {e : ε} :
    x >>= f = .error e ↔ x = .error e ∨ ∃ a, x = .ok a ∧ f a = .error e := by
  cases x with
  | error e' =>
      constructor
      · intro heq
        obtain rfl := Except.error.inj heq
        exact .inl rfl
      · rintro (heq | ⟨a, ha, -⟩)
        · obtain rfl := Except.error.inj heq
          rfl
        · cases ha
  | ok a =>
      constructor
      · intro heq
        exact .inr ⟨a, rfl, heq⟩
      · rintro (heq | ⟨a', ha, heq⟩)
        · cases heq
        · obtain rfl := Except.ok.inj ha
          exact heq

theorem mapM_eq_ok_iff {ε α β : Type} {f : α → Except ε β} {xs : List α} {ys : List β} :
    xs.mapM f = .ok ys ↔ List.Forall₂ (fun x y => f x = .ok y) xs ys := by
  induction xs generalizing ys with
  | nil =>
      rw [List.mapM_nil, List.forall₂_nil_left_iff]
      constructor
      · intro heq
        exact (Except.ok.inj heq).symm
      · rintro rfl
        rfl
  | cons x xs ih =>
      rw [List.mapM_cons, List.forall₂_cons_left_iff]
      cases hhead : f x with
      | error e =>
          refine iff_of_false nofun ?_
          rintro ⟨y, _, hy, _⟩
          cases hy
      | ok y =>
          cases htail : xs.mapM f with
          | error e =>
              refine iff_of_false nofun ?_
              rintro ⟨_, zs, _, hzs, _⟩
              rw [← ih, htail] at hzs
              cases hzs
          | ok zs =>
              constructor
              · intro heq
                obtain rfl := Except.ok.inj heq
                exact ⟨y, zs, rfl, ih.1 htail, rfl⟩
              · rintro ⟨y', zs', hy, hzs, rfl⟩
                obtain rfl := Except.ok.inj hy
                rw [← ih, htail] at hzs
                obtain rfl := Except.ok.inj hzs
                rfl

theorem Grammar.writeFor_eq_ok_iff {g : Grammar} {field text : String}
    {operator : Option Operator} {rangeBound : Bool} {value : Scalar} :
    g.writeFor field operator rangeBound value = .ok text ↔
      g.write? field rangeBound value.text = some text := by
  unfold writeFor
  cases g.write? field rangeBound value.text <;> simp

/-- What fails for a list fails for one of its items. -/
theorem exists_of_mapM_eq_error {ε α β : Type} {f : α → Except ε β} {xs : List α} {e : ε}
    (hfails : xs.mapM f = .error e) : ∃ x ∈ xs, f x = .error e := by
  induction xs with
  | nil =>
      rw [List.mapM_nil] at hfails
      cases hfails
  | cons x xs ih =>
      rw [List.mapM_cons] at hfails
      rcases bind_eq_error_iff.1 hfails with hhead | ⟨y, -, hrest⟩
      · exact ⟨x, List.mem_cons_self, hhead⟩
      · rcases bind_eq_error_iff.1 hrest with htail | ⟨ys, -, hdone⟩
        · obtain ⟨x', hx', hfails'⟩ := ih htail
          exact ⟨x', List.mem_cons_of_mem _ hx', hfails'⟩
        · cases hdone

/-- Nothing keeps a value from being written but a blank in a value of an exempt field. -/
theorem Grammar.write?_eq_none_iff {g : Grammar} {field text : String} {rangeBound : Bool} :
    g.write? field rangeBound text = none ↔
      g.isExempt field = true ∧ Text.hasBlank text = true := by
  unfold write? kind
  cases g.isExempt field with
  | true => cases Text.hasBlank text <;> simp
  | false => cases (g.unquotedFields.map Text.lower).contains (Text.lower field) <;> simp

theorem Grammar.writeFor_eq_error_iff {g : Grammar} {field : String} {operator : Option Operator}
    {rangeBound : Bool} {value : Scalar} {e : ClauseError} :
    g.writeFor field operator rangeBound value = .error e ↔
      g.isExempt field = true ∧ Text.hasBlank value.text = true ∧
        e = .blankValue field operator value := by
  rw [← and_assoc, ← @write?_eq_none_iff _ _ _ rangeBound]
  unfold writeFor
  cases g.write? field rangeBound value.text <;> simp [eq_comm]

namespace Grammar

variable {g : Grammar}

/-- Which clause a filter has, by the shape of the filter. -/
inductive Writes (g : Grammar) : Filter → Clause → Prop
  | compare {field : String} {negate : Bool} {operator : Comparison} {value : Scalar}
      {text : String} (written : g.write? field (isBound operator) value.text = some text) :
      Writes g ⟨field, negate, .compare operator (some value)⟩
        { text := atom negate field (comparisonText operator text) }
  | list {field : String} {negate : Bool} {operator : Membership} {first : Scalar}
      {rest : List Scalar} {texts : List String} (ordinary : g.isExempt field = false)
      (written : List.Forall₂ (fun value text => g.write? field false value.text = some text)
        (first :: rest) texts) :
      Writes g ⟨field, negate, .member operator first rest⟩ {
        text := (if (negate != (operator == .notIn)) = true then " " else " or ").intercalate
          (texts.map (atom (negate != (operator == .notIn)) field)) }
  /-- The list of an exempt field, of which the values without blanks are kept. -/
  | kept {field : String} {negate : Bool} {operator : Membership} {first : Scalar}
      {rest : List Scalar} {clause : Clause} (exempt : g.isExempt field = true)
      (written : exemptClause field operator (negate != (operator == .notIn)) (first :: rest) =
        .ok clause) : Writes g ⟨field, negate, .member operator first rest⟩ clause
  | between {field : String} {negate : Bool} {low high : Scalar} {lowText highText : String}
      (writtenLow : g.write? field true low.text = some lowText)
      (writtenHigh : g.write? field true high.text = some highText) :
      Writes g ⟨field, negate, .between low high⟩
        { text := atom negate field (lowText ++ ".." ++ highText) }
  | presence {field : String} {negate : Bool} {operator : Presence} :
      Writes g ⟨field, negate, .presence operator⟩
        { text := "has: " ++ mark ((operator == .isEmpty) != negate) ++ field }

/-- A filter has a clause exactly when one is written for its shape. -/
theorem clause_eq_ok_iff {f : Filter} {c : Clause} : g.clause f = .ok c ↔ g.Writes f c := by
  rcases f with ⟨field, negate, condition⟩
  constructor
  · intro hclause
    rcases condition with ⟨operator, _ | value⟩ | ⟨operator, first, rest⟩ | ⟨low, high⟩ | operator
    · cases hclause
    · obtain ⟨text, htext, hc⟩ := bind_eq_ok_iff.1 hclause
      obtain rfl := Except.ok.inj hc
      exact .compare (writeFor_eq_ok_iff.1 htext)
    · simp only [clause] at hclause
      split at hclause
      · rename_i hexempt
        exact .kept hexempt hclause
      · rename_i hordinary
        obtain ⟨texts, htexts, hc⟩ := bind_eq_ok_iff.1 hclause
        obtain rfl := Except.ok.inj hc
        refine .list (Bool.eq_false_iff.2 hordinary) ?_
        exact (mapM_eq_ok_iff.1 htexts).imp fun _ _ => writeFor_eq_ok_iff.1
    · obtain ⟨lowText, hlow, hrest⟩ := bind_eq_ok_iff.1 hclause
      obtain ⟨highText, hhigh, hc⟩ := bind_eq_ok_iff.1 hrest
      obtain rfl := Except.ok.inj hc
      exact .between (writeFor_eq_ok_iff.1 hlow) (writeFor_eq_ok_iff.1 hhigh)
    · obtain rfl := Except.ok.inj hclause
      exact .presence
  · intro hwrites
    cases hwrites with
    | compare written => exact bind_eq_ok_iff.2 ⟨_, writeFor_eq_ok_iff.2 written, rfl⟩
    | list ordinary written =>
        simp only [clause]
        rw [ordinary, if_neg Bool.false_ne_true]
        refine bind_eq_ok_iff.2 ⟨_, mapM_eq_ok_iff.2 ?_, rfl⟩
        exact written.imp fun _ _ => writeFor_eq_ok_iff.2
    | kept exempt written =>
        simp only [clause]
        rw [exempt, if_pos rfl]
        exact written
    | between writtenLow writtenHigh =>
        exact bind_eq_ok_iff.2 ⟨_, writeFor_eq_ok_iff.2 writtenLow,
          bind_eq_ok_iff.2 ⟨_, writeFor_eq_ok_iff.2 writtenHigh, rfl⟩⟩
    | presence => rfl

end Grammar

namespace Query

variable {g : Grammar} {r : Request}

theorem clauses_eq_iff {filters : List Filter} {cs : List Clause} :
    clauses g filters = (cs, none) ↔ List.Forall₂ (fun f c => g.clause f = .ok c) filters cs := by
  induction filters generalizing cs with
  | nil =>
      rw [clauses, List.forall₂_nil_left_iff, Prod.mk.injEq]
      exact ⟨fun heq => heq.1.symm, fun heq => ⟨heq.symm, rfl⟩⟩
  | cons f rest ih =>
      rw [clauses, List.forall₂_cons_left_iff]
      cases hclause : g.clause f with
      | error e =>
          refine iff_of_false nofun ?_
          rintro ⟨c, _, hc, _⟩
          cases hc
      | ok c =>
          constructor
          · intro heq
            obtain ⟨rfl, hnone⟩ := Prod.mk.inj heq
            exact ⟨c, (clauses g rest).1, rfl, ih.1 (Prod.ext rfl hnone), rfl⟩
          · rintro ⟨c', cs', hc, hrest, rfl⟩
            obtain rfl := Except.ok.inj hc
            simp only [ih.2 hrest]

/-- A request compiles exactly when every filter has a clause. -/
theorem ofRequest_eq_ok_iff {query : Query} :
    ofRequest g r = .ok query ↔
      ∃ cs, List.Forall₂ (fun f c => g.clause f = .ok c) r.filters cs ∧
        query = {
          text := " ".intercalate (scopePart g r ++ cs.map Clause.text ++ textPart r)
          orderBy := orderOf r.sorting
          warnings := warningsOf cs } := by
  rw [ofRequest, compile]
  rcases hfound : clauses g r.filters with ⟨cs, _ | e⟩
  · simp only
    constructor
    · intro heq
      exact ⟨cs, clauses_eq_iff.1 hfound, (Except.ok.inj heq).symm⟩
    · rintro ⟨cs', hcs, rfl⟩
      rw [← clauses_eq_iff, hfound] at hcs
      rw [(Prod.mk.inj hcs).1]
  · refine iff_of_false nofun ?_
    rintro ⟨cs', hcs, -⟩
    rw [← clauses_eq_iff, hfound] at hcs
    cases (Prod.mk.inj hcs).2

end Query
end IssueSearch
