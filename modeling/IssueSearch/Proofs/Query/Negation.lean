import IssueSearch.Proofs.Query.Failure
import IssueSearch.Proofs.Query.Rendering
/-!
What negation does to a clause. A clause is a formula: phrases that are set side by side or joined
by `or`, each with a dash in front or without one. The dash of a phrase turns that phrase alone, so
a list that is negated value by value is a conjunction, and the dash of an exempt list stands for
all its values. In whatever way a filter is negated, by its mark or by its operator, the formula
says the opposite of what it says otherwise, and negating a filter in both ways is not negating it.
-/
namespace IssueSearch

namespace Query

/-- What is asked of a field, in the texts that are written. -/
inductive Atom where
  | value (field text : String)
  /-- Two bounds, of which an empty one is open. -/
  | range (field low high : String)
  | present (field : String)
deriving DecidableEq, Repr

/-- What a dash stands in front of. -/
inductive Phrase where
  | one (atom : Atom)
  /-- A field with several values, of which it has one. -/
  | oneOf (field : String) (texts : List String)
deriving DecidableEq, Repr

/-- A phrase with a dash or without. -/
structure Part where
  negated : Bool
  phrase : Phrase
deriving DecidableEq, Repr

/-- Parts set side by side, or joined by `or`. -/
inductive Formula where
  | all (parts : List Part)
  | any (parts : List Part)
deriving DecidableEq, Repr

/-- A text with a dash in front if it is negated. -/
def signed (negated : Bool) (text : String) : String := if negated then "-" ++ text else text

/-- The dash stands in front of the field, which is behind the word of a clause on presence. -/
def Part.text (part : Part) : String :=
  match part.phrase with
  | .one (.value field text) => signed part.negated (field ++ ": " ++ text)
  | .one (.range field low high) => signed part.negated (field ++ ": " ++ low ++ ".." ++ high)
  | .one (.present field) => "has: " ++ signed part.negated field
  | .oneOf field texts => signed part.negated (field ++ ": " ++ ",".intercalate texts)

def Formula.text : Formula → String
  | .all parts => " ".intercalate (parts.map Part.text)
  | .any parts => " or ".intercalate (parts.map Part.text)

section Truth

variable (truth : Atom → Bool)

def Phrase.holds : Phrase → Bool
  | .one atom => truth atom
  | .oneOf field texts => texts.any fun text => truth (.value field text)

def Part.holds (part : Part) : Bool := part.negated != part.phrase.holds truth

def Formula.holds : Formula → Bool
  | .all parts => parts.all (Part.holds truth)
  | .any parts => parts.any (Part.holds truth)

end Truth

/-- The parts of a formula. -/
def Formula.parts : Formula → List Part
  | .all parts => parts
  | .any parts => parts

/-- Whether a dash stands in a formula. -/
def Formula.hasDash (formula : Formula) : Bool := formula.parts.any Part.negated

/-- Each atom by itself, with a dash or without. -/
def each (negated : Bool) (atoms : List Atom) : List Part :=
  atoms.map fun atom => ⟨negated, .one atom⟩

end Query

open Query (Atom Formula each signed)

/-- Whether an operator is a negation of another one. -/
def Operator.negates : Operator → Bool
  | .member .notIn => true
  | .presence .isEmpty => true
  | _ => false

/-- What a value is written as; what cannot be written stands for itself. -/
def Grammar.written (g : Grammar) (field : String) (rangeBound : Bool) (value : Scalar) : String :=
  (g.write? field rangeBound value.text).getD value.text

/-- What a comparison asks of a field. -/
def Comparison.asks (operator : Comparison) (field text : String) : Atom :=
  match operator with
  | .greater => .range field text ""
  | .less => .range field "" text
  | _ => .value field text

namespace Filter

variable (g : Grammar) (f : Filter)

/-- What a filter asks of its field: the values of a list that are kept, one by one. -/
def asked : List Atom :=
  match f.condition with
  | .compare operator value => value.toList.map fun value =>
      operator.asks f.field (g.written f.field (Grammar.isBound operator) value)
  | .member _ _ _ => (f.kept g).map fun value => .value f.field (g.written f.field false value)
  | .between low high =>
      [.range f.field (g.written f.field true low) (g.written f.field true high)]
  | .presence _ => [.present f.field]

/-- What a filter says: one of the things it asks for is so, turned round by its mark and by its
operator. -/
def meaning (truth : Atom → Bool) : Bool :=
  f.negate != (f.operator.negates != (f.asked g).any truth)

/-- Whether a filter is negated, its mark and its operator taken together. -/
def negated : Bool := f.negate != f.operator.negates

/-- The formula that a filter is written as. A negated list denies each of its values. -/
def formula : Formula :=
  match f.condition with
  | .member _ _ _ =>
      if g.isExempt f.field then
        .all [⟨f.negated, .oneOf f.field ((f.kept g).map (g.written f.field false))⟩]
      else if f.negated then .all (each true (f.asked g)) else .any (each false (f.asked g))
  | _ => .all (each f.negated (f.asked g))

end Filter

namespace Query

theorem signed_eq (negated : Bool) (text : String) :
    signed negated text = Grammar.mark negated ++ text := by
  cases negated with
  | true => rfl
  | false => exact (String.empty_append).symm

theorem signed_atom (negated : Bool) (field text : String) :
    signed negated (field ++ ": " ++ text) = Grammar.atom negated field text := by
  rw [signed_eq, Grammar.atom]
  simp only [String.append_assoc]

theorem text_value (negated : Bool) (field text : String) :
    Part.text ⟨negated, .one (.value field text)⟩ = Grammar.atom negated field text :=
  signed_atom negated field text

theorem text_range (negated : Bool) (field low high : String) :
    Part.text ⟨negated, .one (.range field low high)⟩ =
      Grammar.atom negated field (low ++ ".." ++ high) := by
  rw [← signed_atom]
  simp only [Part.text, String.append_assoc]

theorem text_asks (negated : Bool) (operator : Comparison) (field text : String) :
    Part.text ⟨negated, .one (operator.asks field text)⟩ =
      Grammar.atom negated field (Grammar.comparisonText operator text) := by
  cases operator with
  | greater => rw [Comparison.asks, text_range, String.append_empty]; rfl
  | less => rw [Comparison.asks, text_range, String.empty_append]; rfl
  | equals | contains | startsWith | endsWith => exact text_value negated field text

theorem text_all_singleton (part : Part) : (Formula.all [part]).text = part.text := by
  rw [Formula.text, List.map_singleton, String.intercalate_singleton]

theorem text_each (negated : Bool) (field : String) (texts : List String) :
    (each negated (texts.map (.value field))).map Part.text =
      texts.map (Grammar.atom negated field) := by
  rw [each, List.map_map, List.map_map]
  exact List.map_congr_left fun text _ => text_value negated field text

theorem holds_all_each (truth : Atom → Bool) (atoms : List Atom) :
    (Formula.all (each true atoms)).holds truth = !atoms.any truth := by
  simp [Formula.holds, each, Part.holds, Phrase.holds, List.not_any_eq_all_not, Function.comp_def]

theorem holds_any_each (truth : Atom → Bool) (atoms : List Atom) :
    (Formula.any (each false atoms)).holds truth = atoms.any truth := by
  simp [Formula.holds, each, Part.holds, Phrase.holds, Function.comp_def]

theorem holds_each_singleton (truth : Atom → Bool) (negated : Bool) (atom : Atom) :
    (Formula.all (each negated [atom])).holds truth = (negated != [atom].any truth) := by
  simp [Formula.holds, each, Part.holds, Phrase.holds]

end Query

variable {g : Grammar} {f : Filter} {c : Clause}

theorem Filter.negated_of_plain (hplain : f.operator.negates = false) : f.negated = f.negate := by
  rw [negated, hplain, Bool.bne_false]

theorem Filter.negated_list (field : String) (negate : Bool) (operator : Membership)
    (first : Scalar) (rest : List Scalar) :
    Filter.negated ⟨field, negate, .member operator first rest⟩ =
      (negate != (operator == .notIn)) := by
  cases operator <;> rfl

theorem Grammar.written_eq {field text : String} {rangeBound : Bool} {value : Scalar}
    (hwritten : g.write? field rangeBound value.text = some text) :
    g.written field rangeBound value = text := by
  rw [written, hwritten, Option.getD_some]

theorem Grammar.map_written_eq {field : String} {rangeBound : Bool} {values : List Scalar}
    {texts : List String} (hwritten : List.Forall₂ (fun (value : Scalar) text =>
      g.write? field rangeBound value.text = some text) values texts) :
    values.map (g.written field rangeBound) = texts := by
  induction hwritten with
  | nil => rfl
  | cons hvalue _ ih => rw [List.map_cons, written_eq hvalue, ih]

theorem Filter.kept_eq_values (hkeeps : g.isExempt f.field = false ∨
    ∀ operator first rest, f.condition ≠ .member operator first rest) :
    f.kept g = f.condition.values := by
  simp [kept, leavesOut_eq_false hkeeps]

namespace Grammar.Writes

/-- A clause is the text of the formula of its filter. -/
theorem text_eq (hwrites : g.Writes f c) : c.text = (f.formula g).text := by
  cases hwrites with
  | @compare field negate operator value text written =>
      have hnegated : Filter.negated ⟨field, negate, .compare operator (some value)⟩ = negate :=
        Filter.negated_of_plain rfl
      simp only [Filter.formula, Filter.asked, hnegated, each, Option.toList_some,
        List.map_singleton, Query.text_all_singleton, Query.text_asks, written_eq written]
  | @list field negate operator first rest texts ordinary written =>
      have hkept : Filter.kept g ⟨field, negate, .member operator first rest⟩ = first :: rest :=
        Filter.kept_eq_values (.inl ordinary)
      have hasked : Filter.asked g ⟨field, negate, .member operator first rest⟩ =
          texts.map (.value field) := by
        rw [← map_written_eq written, List.map_map, ← hkept]
        rfl
      rw [← Filter.negated_list field negate operator first rest]
      simp only [Filter.formula, ordinary, Bool.false_eq_true, if_false, hasked]
      cases Filter.negated ⟨field, negate, .member operator first rest⟩ with
      | true => simp only [if_true, Formula.text, Query.text_each]
      | false => simp only [Bool.false_eq_true, if_false, Formula.text, Query.text_each]
  | @kept field negate operator first rest clause exempt written =>
      obtain ⟨texts, htexts, htext⟩ := (rendered_of_exempt exempt written).text
      have hkept : (Filter.kept g ⟨field, negate, .member operator first rest⟩).map
          (g.written field false) = texts := map_written_eq htexts
      simp only [Filter.formula, exempt, if_true, hkept, Query.text_all_singleton,
        Query.Part.text, Query.signed_atom, Filter.negated_list, fill_kept exempt]
      exact htext
  | @between field negate low high lowText highText writtenLow writtenHigh =>
      have hnegated : Filter.negated ⟨field, negate, .between low high⟩ = negate :=
        Filter.negated_of_plain rfl
      simp only [Filter.formula, Filter.asked, hnegated, each, List.map_singleton,
        Query.text_all_singleton, Query.text_range, written_eq writtenLow, written_eq writtenHigh]
  | @presence field negate operator =>
      have hnegated : Filter.negated ⟨field, negate, .presence operator⟩ =
          ((operator == .isEmpty) != negate) := by
        cases negate <;> cases operator <;> rfl
      simp only [Filter.formula, Filter.asked, hnegated, each, List.map_singleton,
        Query.text_all_singleton, Query.Part.text, Query.signed_eq, String.append_assoc]

/-- The formula of a filter with a clause says what the filter says. -/
theorem holds_eq (hwrites : g.Writes f c) (truth : Atom → Bool) :
    (f.formula g).holds truth = f.meaning g truth := by
  rw [Filter.meaning, ← Bool.bne_assoc]
  cases hwrites with
  | compare written => exact Query.holds_each_singleton truth _ _
  | @list field negate operator first rest texts ordinary written =>
      rw [← Filter.negated]
      simp only [Filter.formula, ordinary, Bool.false_eq_true, if_false]
      cases Filter.negated ⟨field, negate, .member operator first rest⟩ with
      | true => exact (Query.holds_all_each truth _).trans (Bool.true_bne _).symm
      | false => exact (Query.holds_any_each truth _).trans (Bool.false_bne _).symm
  | kept exempt written =>
      simp [Filter.formula, exempt, Formula.holds, Query.Part.holds, Query.Phrase.holds,
        Filter.asked, Filter.negated, Function.comp_def]
  | between => exact Query.holds_each_singleton truth _ _
  | presence => exact Query.holds_each_singleton truth _ _

/-- How a list is negated cannot be told from its clause. -/
theorem member_congr {field : String} {negate negate' : Bool} {operator operator' : Membership}
    {first : Scalar} {rest : List Scalar}
    (hsame : (negate != (operator == .notIn)) = (negate' != (operator' == .notIn)))
    (hwrites : g.Writes ⟨field, negate, .member operator first rest⟩ c) :
    g.Writes ⟨field, negate', .member operator' first rest⟩ c := by
  cases hwrites with
  | list ordinary written =>
      rw [hsame]
      exact .list ordinary written
  | kept exempt written =>
      rw [hsame] at written
      refine .kept exempt ?_
      simp only [exemptClause] at written ⊢
      split at written
      · cases written
      · rename_i hkept
        rw [if_neg hkept]
        exact written

end Grammar.Writes

/-- The mark of negation does not keep a filter from being written. -/
theorem Grammar.Refuses.of_negate {e : ClauseError} (hrefuses : g.Refuses f e) (negate : Bool) :
    g.Refuses { f with negate } e := by
  cases hrefuses with
  | noValue => exact .noValue
  | compare exempt blank => exact .compare exempt blank
  | low exempt blank => exact .low exempt blank
  | high exempt unblank blank => exact .high exempt unblank blank
  | list exempt blank => exact .list exempt blank

namespace Filter

/-- A filter with its mark of negation turned round. -/
def flip (f : Filter) : Filter := { f with negate := !f.negate }

theorem exists_clause_flip (hclause : g.clause f = .ok c) : ∃ c', g.clause f.flip = .ok c' := by
  rw [Query.exists_clause_iff]
  intro e hrefuses
  exact Query.exists_clause_iff.1 ⟨c, hclause⟩ e (hrefuses.of_negate f.negate)

theorem meaning_flip (g : Grammar) (f : Filter) (truth : Atom → Bool) :
    f.flip.meaning g truth = !f.meaning g truth := by
  have hasked : f.flip.asked g = f.asked g := rfl
  rw [meaning, meaning, hasked, flip, Bool.not_bne]
  rfl

end Filter

namespace Grammar

/-- What negation does to the clauses of a grammar. -/
structure Complements (g : Grammar) : Prop where
  /-- A clause is the text of a formula that says what the filter says. -/
  clause : ∀ f c, g.clause f = .ok c →
    c.text = (f.formula g).text ∧ ∀ truth, (f.formula g).holds truth = f.meaning g truth
  /-- Where a filter has a clause, the flipped filter has one that says the opposite. -/
  flip : ∀ f c, g.clause f = .ok c → ∃ c', g.clause f.flip = .ok c' ∧
    c'.text = (f.flip.formula g).text ∧
    ∀ truth, (f.flip.formula g).holds truth = !(f.formula g).holds truth
  /-- A list of values to be kept out is written as the negated list of values to be found. -/
  notIn : ∀ field negate first rest c,
    g.clause ⟨field, negate, .member .notIn first rest⟩ = .ok c ↔
      g.clause ⟨field, !negate, .member .isIn first rest⟩ = .ok c
  isEmpty : ∀ field negate, g.clause ⟨field, negate, .presence .isEmpty⟩ =
    g.clause ⟨field, !negate, .presence .isNotEmpty⟩

/-- Negation is the complement, for every filter that has a clause and however it is negated. -/
theorem clause_complements (g : Grammar) : g.Complements := by
  have hformula : ∀ f c, g.clause f = .ok c →
      c.text = (f.formula g).text ∧ ∀ truth, (f.formula g).holds truth = f.meaning g truth := by
    intro f c hclause
    have hwrites := clause_eq_ok_iff.1 hclause
    exact ⟨hwrites.text_eq, hwrites.holds_eq⟩
  refine ⟨hformula, ?_, ?_, ?_⟩
  · intro f c hclause
    obtain ⟨c', hflip⟩ := Filter.exists_clause_flip hclause
    obtain ⟨htext, hmeaning⟩ := hformula f.flip c' hflip
    refine ⟨c', hflip, htext, fun truth => ?_⟩
    rw [hmeaning, (hformula f c hclause).2, Filter.meaning_flip]
  · intro field negate first rest c
    have hsame : (negate != (Membership.notIn == .notIn)) =
        ((!negate) != (Membership.isIn == .notIn)) := by
      cases negate <;> rfl
    rw [clause_eq_ok_iff, clause_eq_ok_iff]
    exact ⟨Writes.member_congr hsame, Writes.member_congr hsame.symm⟩
  · intro field negate
    cases negate <;> rfl

/-- A negated list denies each of its values by itself. -/
example : Filter.formula {} ⟨"assignee", true, .member .isIn (.str "jane") [.str "john doe"]⟩ =
    .all [⟨true, .one (.value "assignee" "jane")⟩,
      ⟨true, .one (.value "assignee" "\"john doe\"")⟩] := by
  decide +kernel

end Grammar
end IssueSearch
