import IssueSearch.Proofs.Query.Containment
import IssueSearch.Search.Step
/-!
What becomes of the values of a request. A clause is a frame that the field, the operator and the
negation decide alone, filled with the values in order. Each value of a filter is either written
into the frame of its filter or left out of the list of an exempt field, because it holds blanks;
a list that lost values is told of in one warning, which names what was lost and what was kept.
-/
namespace IssueSearch

/-- What stands around the values in a clause. -/
structure Frame where
  lead : String
  separator : String := ""
  trail : String := ""

def Frame.fill (frame : Frame) (texts : List String) : String :=
  frame.lead ++ frame.separator.intercalate texts ++ frame.trail

/-- The frame of the filters with a field, a negation and an operator. A list that is written value
by value repeats the field between two values. -/
def Grammar.frame (g : Grammar) (field : String) (negate : Bool) : Operator → Frame
  | .compare .greater => { lead := atom negate field "", trail := ".." }
  | .compare .less => { lead := atom negate field ".." }
  | .compare _ => { lead := atom negate field "" }
  | .member operator =>
      let negated := negate != (operator == .notIn)
      let lead := atom negated field ""
      let joiner := if negated then " " else " or "
      { lead, separator := if g.isExempt field then "," else joiner ++ lead }
  | .between => { lead := atom negate field "", separator := ".." }
  | .presence operator => { lead := "has: " ++ mark ((operator == .isEmpty) != negate) ++ field }

namespace Filter

variable {g : Grammar} {f : Filter}

/-- Whether a value is left out of the clause of its filter: an exempt field takes its list without
the values that hold blanks. -/
def leavesOut (g : Grammar) (f : Filter) (value : Scalar) : Bool :=
  match f.condition with
  | .member _ _ _ => g.isExempt f.field && Text.hasBlank value.text
  | _ => false

/-- The values that stand in the clause of a filter, in order. -/
def kept (g : Grammar) (f : Filter) : List Scalar :=
  f.condition.values.filter fun value => !f.leavesOut g value

/-- The values that do not, in order. -/
def lost (g : Grammar) (f : Filter) : List Scalar :=
  f.condition.values.filter fun value => f.leavesOut g value

/-- What is told of a filter that lost values. -/
def report (g : Grammar) (f : Filter) : Dropped :=
  ⟨f.field, (f.lost g).map Scalar.text, (f.kept g).map Scalar.text⟩

theorem mem_lost_iff {value : Scalar} : value ∈ f.lost g ↔ value ∈ f.condition.values ∧
    (∃ operator first rest, f.condition = .member operator first rest) ∧
      g.isExempt f.field = true ∧ Text.hasBlank value.text = true := by
  rw [lost, List.mem_filter, leavesOut]
  cases f.condition <;> simp

/-- What is not the list of an exempt field keeps all its values. -/
theorem leavesOut_eq_false (hkeeps : g.isExempt f.field = false ∨
    ∀ operator first rest, f.condition ≠ .member operator first rest) (value : Scalar) :
    f.leavesOut g value = false := by
  rw [leavesOut]
  split
  · rename_i operator first rest hlist
    rcases hkeeps with hordinary | hnot
    · rw [hordinary, Bool.false_and]
    · exact absurd hlist (hnot operator first rest)
  · rfl

/-- A clause that renders its filter. -/
structure Rendered (g : Grammar) (f : Filter) (c : Clause) : Prop where
  ne_empty : c.text ≠ ""
  /-- The values that are kept are written one by one into the frame of the filter. -/
  text : ∃ texts, List.Forall₂ (fun (value : Scalar) text =>
      g.write? f.field f.condition.isBound value.text = some text) (f.kept g) texts ∧
    c.text = (g.frame f.field f.negate f.operator).fill texts
  dropped : c.dropped = if f.lost g = [] then none else some (f.report g)

end Filter

namespace Grammar

variable {g : Grammar} {f : Filter} {c : Clause}

theorem atom_append (negated : Bool) (field text text' : String) :
    atom negated field (text ++ text') = atom negated field text ++ text' := by
  simp only [atom, String.append_assoc]

theorem atom_ne_empty (negated : Bool) (field text : String) : atom negated field text ≠ "" := by
  simp [atom]

/-- An exempt value without blanks is written as it is. -/
theorem write?_of_exempt {field text : String} {rangeBound : Bool}
    (hexempt : g.isExempt field = true) (hblank : Text.hasBlank text = false) :
    g.write? field rangeBound text = some text := by
  have hkind : g.kind field = .exempt := if_pos hexempt
  rw [write?, hkind]
  exact if_neg (Bool.eq_false_iff.1 hblank)

theorem fill_kept {field : String} (hexempt : g.isExempt field = true) (negate : Bool)
    (operator : Membership) (texts : List String) :
    atom (negate != (operator == .notIn)) field (",".intercalate texts) =
      (g.frame field negate (.member operator)).fill texts := by
  simp only [frame, Frame.fill, hexempt, if_true, String.append_empty, ← atom_append,
    String.empty_append]

/-- The list of an exempt field is written with the values that are kept, if there are any. -/
theorem exemptClause_eq {field : String} (hexempt : g.isExempt field = true) (negate negated : Bool)
    (operator : Membership) (first : Scalar) (rest : List Scalar) :
    let f : Filter := ⟨field, negate, .member operator first rest⟩
    exemptClause field operator negated (first :: rest) =
      if f.kept g = [] then .error (.allBlank field operator (first :: rest))
      else .ok {
        text := atom negated field (",".intercalate ((f.kept g).map Scalar.text))
        dropped := if f.lost g = [] then none else some (f.report g) } := by
  intro f
  have hkept : ((first :: rest).map Scalar.text).filter (fun text => !Text.hasBlank text) =
      (f.kept g).map Scalar.text := by
    simp only [f, Filter.kept, Filter.leavesOut, Condition.values, hexempt, Bool.true_and]
    rw [List.filter_map]
    rfl
  have hlost : ((first :: rest).map Scalar.text).filter Text.hasBlank =
      (f.lost g).map Scalar.text := by
    simp only [f, Filter.lost, Filter.leavesOut, Condition.values, hexempt, Bool.true_and]
    rw [List.filter_map]
    rfl
  simp only [exemptClause, hkept, hlost, List.isEmpty_iff, List.map_eq_nil_iff]
  rfl

/-- The clause of the list of an exempt field. -/
theorem rendered_of_exempt {field : String} {negate : Bool} {operator : Membership}
    {first : Scalar} {rest : List Scalar} (hexempt : g.isExempt field = true)
    (hwritten : exemptClause field operator (negate != (operator == .notIn)) (first :: rest) =
      .ok c) : Filter.Rendered g ⟨field, negate, .member operator first rest⟩ c := by
  have hunblank : ∀ value ∈ Filter.kept g ⟨field, negate, .member operator first rest⟩,
      g.write? field false value.text = some value.text := by
    intro value hvalue
    have hleft := (List.mem_filter.1 hvalue).2
    simp only [Filter.leavesOut, hexempt, Bool.true_and, Bool.not_eq_true'] at hleft
    exact write?_of_exempt hexempt hleft
  rw [exemptClause_eq hexempt negate] at hwritten
  split at hwritten
  · cases hwritten
  · obtain rfl := Except.ok.inj hwritten
    constructor
    · exact atom_ne_empty _ _ _
    · refine ⟨_, ?_, fill_kept hexempt negate operator _⟩
      rw [List.forall₂_map_right_iff]
      exact List.forall₂_same.2 hunblank
    · rfl

end Grammar

namespace Query

variable {g : Grammar} {r : Request}

end Query
end IssueSearch
