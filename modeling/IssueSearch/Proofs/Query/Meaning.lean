import IssueSearch.Query.Compile
import Mathlib.Logic.Basic
import Mathlib.Tactic.ByContra
/-!
What requests and query texts say of a record. A request is a conjunction. A query text is a row of
clauses in which juxtaposition binds closer than `or`, so it is a disjunction of conjunctions. A
list that is written with `or` beside other clauses therefore comes apart: the text holds wherever
the request does, and it says no more than the request exactly when each of its alternatives covers
every part of the request.
-/
namespace IssueSearch

/-- What a clause asks of its field: a value, or a value between two bounds, of which an empty one
is open. -/
inductive Test where
  | is (value : String)
  | span (low high : String)
deriving DecidableEq, Repr

/-- A record, known by the tests that its fields pass. -/
abbrev Record := String → Test → Bool

/-- The field by which a record tells which fields it has. -/
def presenceField : String := "has"

/-- The field by which a record tells which words stand in its text. -/
def textField : String := "#"

/-- The test that a comparison with a text makes. -/
def Comparison.test (operator : Comparison) (text : String) : Test :=
  match operator with
  | .greater => .span text ""
  | .less => .span "" text
  | _ => .is text

def Condition.holds (record : Record) (field : String) : Condition → Bool
  | .compare _ none => false
  | .compare operator (some value) => record field (operator.test value.text)
  | .member operator first rest =>
      (operator == .notIn) != (first :: rest).any fun value => record field (.is value.text)
  | .between low high => record field (.span low.text high.text)
  | .presence operator => (operator == .isEmpty) != record presenceField (.is field)

def Filter.holds (record : Record) (f : Filter) : Bool :=
  f.negate != f.condition.holds record f.field

/-- A request holds of a record if its scope, all its filters and its text do. -/
def Request.holds (g : Grammar) (record : Record) (r : Request) : Bool :=
  (Query.nonempty? r.scopeId).all (fun scope => record g.scopeField (.is scope)) &&
    r.filters.all (Filter.holds record) &&
    (Query.nonempty? r.textSearch).all fun token => record textField (.is token)

/-- A clause: its field passes one of the tests, or none of them if the clause is negated. -/
structure Literal where
  field : String
  negated : Bool
  tests : List Test
deriving DecidableEq, Repr

namespace Literal

def holds (record : Record) (l : Literal) : Bool := l.negated != l.tests.any (record l.field)

def atoms (l : Literal) : List (String × Test) := l.tests.map (l.field, ·)

/-- A clause for each test. -/
def split (l : Literal) : List Literal := l.tests.map fun test => { l with tests := [test] }

end Literal

/-- What a filter says of a record, as one clause. -/
def Filter.literal (f : Filter) : Literal :=
  match f.condition with
  | .compare operator value =>
      ⟨f.field, f.negate, value.toList.map fun value => operator.test value.text⟩
  | .member operator first rest =>
      ⟨f.field, f.negate != (operator == .notIn), (first :: rest).map fun value => .is value.text⟩
  | .between low high => ⟨f.field, f.negate, [.span low.text high.text]⟩
  | .presence operator => ⟨presenceField, f.negate != (operator == .isEmpty), [.is f.field]⟩

/-- What a request says of a record, part by part. -/
def Request.literals (g : Grammar) (r : Request) : List Literal :=
  (Query.nonempty? r.scopeId).toList.map (fun scope => ⟨g.scopeField, false, [.is scope]⟩) ++
    r.filters.map Filter.literal ++
    (Query.nonempty? r.textSearch).toList.map fun token => ⟨textField, false, [.is token]⟩

theorem Filter.holds_literal (record : Record) (f : Filter) (hvalue : f.literal.tests ≠ []) :
    f.literal.holds record = f.holds record := by
  rcases f with ⟨field, negate, ⟨operator, _ | value⟩ | ⟨operator, first, rest⟩ | ⟨low, high⟩ |
    operator⟩
  · exact absurd rfl hvalue
  · simp [literal, Literal.holds, holds, Condition.holds]
  · simp only [literal, Literal.holds, holds, Condition.holds, List.any_map, Function.comp_def,
      Bool.bne_assoc]
  · simp [literal, Literal.holds, holds, Condition.holds]
  · simp only [literal, Literal.holds, holds, Condition.holds, List.any_cons, List.any_nil,
      Bool.or_false, Bool.bne_assoc]

theorem Request.holds_eq_all (g : Grammar) (record : Record) (r : Request)
    (hvalues : ∀ f ∈ r.filters, f.literal.tests ≠ []) :
    r.holds g record = (r.literals g).all (Literal.holds record) := by
  have hfilters : (r.filters.map Filter.literal).all (Literal.holds record) =
      r.filters.all (Filter.holds record) := by
    rw [List.all_map, Bool.eq_iff_iff, List.all_eq_true, List.all_eq_true]
    exact forall₂_congr fun f hf => by
      rw [Function.comp_apply, Filter.holds_literal record f (hvalues f hf)]
  have hoption : ∀ (text : Option String) (field : String),
      (text.toList.map fun value => (⟨field, false, [.is value]⟩ : Literal)).all
        (Literal.holds record) = text.all fun value => record field (.is value) := by
    intro text field
    cases text <;> simp [Literal.holds]
  rw [Request.holds, Request.literals, List.all_append, List.all_append, hfilters, hoption, hoption]

namespace Query

/-- What a query text is a row of. -/
inductive Item where
  | clause (l : Literal)
  | or
deriving DecidableEq, Repr

/-- The conjunctions between which a row leaves the choice. -/
def alternatives : List Item → List (List Literal)
  | [] => [[]]
  | .or :: rest => [] :: alternatives rest
  | .clause l :: rest =>
      match alternatives rest with
      | [] => [[l]]
      | first :: others => (l :: first) :: others

def itemsHold (record : Record) (items : List Item) : Bool :=
  (alternatives items).any fun alternative => alternative.all (Literal.holds record)

/-- The row that a clause is written as. One that is written apart is a clause for each test, with
`or` between unless it is negated. -/
def itemsOf (apart : Bool) (l : Literal) : List Item :=
  if apart then
    if l.negated then l.split.map .clause else (l.split.map .clause).intersperse .or
  else [.clause l]

theorem itemsHold_clause {record : Record} {l : Literal} {rest : List Item}
    (hl : l.holds record = true) (hrest : itemsHold record rest = true) :
    itemsHold record (.clause l :: rest) = true := by
  rw [itemsHold] at hrest ⊢
  rw [alternatives]
  cases halternatives : alternatives rest with
  | nil =>
      rw [halternatives] at hrest
      cases hrest
  | cons first others =>
      rw [halternatives, List.any_cons, Bool.or_eq_true] at hrest
      rw [List.any_cons, List.all_cons, hl, Bool.true_and, Bool.or_eq_true]
      exact hrest

theorem itemsHold_clause_or (record : Record) (l : Literal) (rest : List Item) :
    itemsHold record (.clause l :: .or :: rest) = (l.holds record || itemsHold record rest) := by
  simp [itemsHold, alternatives]

theorem itemsHold_clauses {record : Record} {ls : List Literal} {rest : List Item}
    (hls : ∀ l ∈ ls, l.holds record = true) (hrest : itemsHold record rest = true) :
    itemsHold record (ls.map .clause ++ rest) = true := by
  induction ls with
  | nil => exact hrest
  | cons l ls ih =>
      exact itemsHold_clause (hls l List.mem_cons_self)
        (ih fun other hother => hls other (List.mem_cons_of_mem _ hother))

theorem itemsHold_intersperse {record : Record} {ls : List Literal} {rest : List Item}
    (hls : ∃ l ∈ ls, l.holds record = true) (hrest : itemsHold record rest = true) :
    itemsHold record ((ls.map .clause).intersperse .or ++ rest) = true := by
  induction ls with
  | nil =>
      obtain ⟨l, hmem, -⟩ := hls
      cases hmem
  | cons l ls ih =>
      obtain ⟨holding, hmem, hholds⟩ := hls
      cases ls with
      | nil =>
          obtain rfl := List.mem_singleton.1 hmem
          exact itemsHold_clause hholds hrest
      | cons next ls =>
          have hrow : ((l :: next :: ls).map Item.clause).intersperse .or ++ rest =
              .clause l :: .or :: (((next :: ls).map Item.clause).intersperse .or ++ rest) := rfl
          rw [hrow, itemsHold_clause_or, Bool.or_eq_true]
          rcases List.mem_cons.1 hmem with rfl | hmem
          · exact .inl hholds
          · exact .inr (ih ⟨holding, hmem, hholds⟩)

theorem holds_split_iff {record : Record} {l : Literal} :
    l.holds record = true ↔ if l.negated then ∀ part ∈ l.split, part.holds record = true
      else ∃ part ∈ l.split, part.holds record = true := by
  rcases l with ⟨field, negated, tests⟩
  cases negated <;> simp [Literal.holds, Literal.split]

/-- A row holds wherever everything does that it is written from. -/
theorem itemsHold_of_all {record : Record} {apart : Literal → Bool} {ls : List Literal}
    (hls : ∀ l ∈ ls, l.holds record = true) :
    itemsHold record (ls.flatMap fun l => itemsOf (apart l) l) = true := by
  induction ls with
  | nil => rfl
  | cons l ls ih =>
      have hrest := ih fun other hother => hls other (List.mem_cons_of_mem _ hother)
      have hl := hls l List.mem_cons_self
      rw [List.flatMap_cons, itemsOf]
      split
      · rw [holds_split_iff] at hl
        split
        · rename_i hnegated
          rw [if_pos hnegated] at hl
          exact itemsHold_clauses hl hrest
        · rename_i hnegated
          rw [if_neg hnegated] at hl
          exact itemsHold_intersperse hl hrest
      · exact itemsHold_clause hl hrest

/-- The atoms that a conjunction denies. -/
def denied (alternative : List Literal) : List (String × Test) :=
  (alternative.filter Literal.negated).flatMap Literal.atoms

/-- Whether a conjunction has a clause as a consequence: it denies all that the clause denies, or
one of its clauses has no atoms but some of that clause and some that are denied. -/
def Covers (alternative : List Literal) (l : Literal) : Prop :=
  (l.negated = true ∧ ∀ atom ∈ l.atoms, atom ∈ denied alternative) ∨
    ∃ d ∈ alternative, d.negated = false ∧
      ∀ atom ∈ d.atoms, atom ∈ denied alternative ∨ l.negated = false ∧ atom ∈ l.atoms

instance (alternative : List Literal) (l : Literal) : Decidable (Covers alternative l) := by
  unfold Covers
  infer_instance

theorem holds_iff_of_positive {record : Record} {l : Literal} (hl : l.negated = false) :
    l.holds record = true ↔ ∃ atom ∈ l.atoms, record atom.1 atom.2 = true := by
  simp [Literal.holds, Literal.atoms, hl]

theorem holds_iff_of_negated {record : Record} {l : Literal} (hl : l.negated = true) :
    l.holds record = true ↔ ∀ atom ∈ l.atoms, record atom.1 atom.2 = false := by
  simp [Literal.holds, Literal.atoms, hl]

theorem mem_denied {alternative : List Literal} {atom : String × Test} :
    atom ∈ denied alternative ↔ ∃ d ∈ alternative, d.negated = true ∧ atom ∈ d.atoms := by
  simp only [denied, List.mem_flatMap, List.mem_filter, and_assoc]

theorem record_of_mem_denied {record : Record} {alternative : List Literal}
    (hholds : ∀ d ∈ alternative, d.holds record = true) {atom : String × Test}
    (hmem : atom ∈ denied alternative) : record atom.1 atom.2 = false := by
  obtain ⟨d, hd, hnegated, hatom⟩ := mem_denied.1 hmem
  exact (holds_iff_of_negated hnegated).1 (hholds d hd) atom hatom

theorem Covers.holds {record : Record} {alternative : List Literal} {l : Literal}
    (hcovers : Covers alternative l) (hholds : ∀ d ∈ alternative, d.holds record = true) :
    l.holds record = true := by
  rcases hcovers with ⟨hnegated, hall⟩ | ⟨d, hd, hpositive, hall⟩
  · rw [holds_iff_of_negated hnegated]
    exact fun atom hatom => record_of_mem_denied hholds (hall atom hatom)
  · obtain ⟨atom, hatom, htrue⟩ := (holds_iff_of_positive hpositive).1 (hholds d hd)
    rcases hall atom hatom with hdenied | ⟨hl, hmem⟩
    · rw [record_of_mem_denied hholds hdenied] at htrue
      cases htrue
    · exact (holds_iff_of_positive hl).2 ⟨atom, hmem, htrue⟩

/-- The record that passes every test but those that a conjunction denies and those of a clause,
unless that clause is negated itself. -/
def counterRecord (alternative : List Literal) (l : Literal) : Record := fun field test =>
  !((field, test) ∈ denied alternative || (!l.negated && (field, test) ∈ l.atoms))

/-- A clause that is not covered fails of a record of which the conjunction holds. -/
theorem exists_record_of_not_covers {alternative : List Literal} {l : Literal}
    (hcovers : ¬ Covers alternative l) : ∃ record : Record,
      (∀ d ∈ alternative, d.holds record = true) ∧ l.holds record = false := by
  refine ⟨counterRecord alternative l, ?_, ?_⟩
  · intro d hd
    cases hnegated : d.negated with
    | true =>
        rw [holds_iff_of_negated hnegated]
        intro atom hatom
        have hdenied : atom ∈ denied alternative := mem_denied.2 ⟨d, hd, hnegated, hatom⟩
        simp [counterRecord, hdenied]
    | false =>
        rw [holds_iff_of_positive hnegated]
        by_contra hnone
        refine hcovers (.inr ⟨d, hd, hnegated, fun atom hatom => ?_⟩)
        have hfails : ¬ counterRecord alternative l atom.1 atom.2 = true :=
          fun htrue => hnone ⟨atom, hatom, htrue⟩
        simpa [counterRecord, or_iff_not_imp_left] using hfails
  · rw [← Bool.not_eq_true]
    cases hnegated : l.negated with
    | true =>
        rw [holds_iff_of_negated hnegated]
        intro hall
        refine hcovers (.inl ⟨hnegated, fun atom hatom => ?_⟩)
        simpa [counterRecord, hnegated] using hall atom hatom
    | false =>
        rw [holds_iff_of_positive hnegated]
        rintro ⟨atom, hatom, htrue⟩
        simp [counterRecord, hnegated, hatom] at htrue

/-- A row that holds wherever a conjunction does says the same exactly when each of its alternatives
covers every clause of the conjunction. -/
theorem itemsHold_iff_covers {items : List Item} {ls : List Literal}
    (hweaker : ∀ record, ls.all (Literal.holds record) = true → itemsHold record items = true) :
    (∀ record, itemsHold record items = ls.all (Literal.holds record)) ↔
      ∀ alternative ∈ alternatives items, ∀ l ∈ ls, Covers alternative l := by
  constructor
  · intro hsame alternative halternative l hl
    by_contra hcovers
    obtain ⟨record, hholds, hfails⟩ := exists_record_of_not_covers hcovers
    have hitems : itemsHold record items = true := by
      rw [itemsHold, List.any_eq_true]
      exact ⟨alternative, halternative, List.all_eq_true.2 hholds⟩
    rw [hsame, List.all_eq_true] at hitems
    rw [hitems l hl] at hfails
    cases hfails
  · intro hcovers record
    rw [Bool.eq_iff_iff]
    refine ⟨fun hitems => ?_, hweaker record⟩
    rw [itemsHold, List.any_eq_true] at hitems
    obtain ⟨alternative, halternative, hholds⟩ := hitems
    rw [List.all_eq_true] at hholds ⊢
    exact fun l hl => (hcovers alternative halternative l hl).holds hholds

/-- A clause that is written with `or`. -/
def Scattered (apart : Bool) (l : Literal) : Prop :=
  apart = true ∧ l.negated = false ∧ 1 < l.tests.length

theorem itemsHold_map_clause (record : Record) (ls : List Literal) :
    itemsHold record (ls.map .clause) = ls.all (Literal.holds record) := by
  have halternatives : alternatives (ls.map .clause) = [ls] := by
    induction ls with
    | nil => rfl
    | cons l ls ih => simp only [List.map_cons, alternatives, ih]
  rw [itemsHold, halternatives, List.any_cons, List.any_nil, Bool.or_false]

theorem itemsHold_intersperse_eq_any (record : Record) {ls : List Literal} (hne : ls ≠ []) :
    itemsHold record ((ls.map .clause).intersperse .or) = ls.any (Literal.holds record) := by
  induction ls with
  | nil => exact absurd rfl hne
  | cons l ls ih =>
      cases ls with
      | nil => simp [itemsHold, alternatives]
      | cons next ls =>
          have hrow : ((l :: next :: ls).map Item.clause).intersperse .or =
              .clause l :: .or :: ((next :: ls).map Item.clause).intersperse .or := rfl
          rw [hrow, itemsHold_clause_or, ih (List.cons_ne_nil _ _), List.any_cons, List.any_cons,
            List.any_cons]

/-- A clause that is not written with `or` is written as a conjunction. -/
theorem exists_itemsOf_eq_map {apart : Bool} {l : Literal} (htests : l.tests ≠ [])
    (hscattered : ¬ Scattered apart l) : ∃ parts : List Literal,
      itemsOf apart l = parts.map .clause ∧
      ∀ record, parts.all (Literal.holds record) = l.holds record := by
  cases apart with
  | false => exact ⟨[l], rfl, fun record => by simp⟩
  | true =>
      cases hnegated : l.negated with
      | true =>
          refine ⟨l.split, by rw [itemsOf, if_pos rfl, if_pos hnegated], fun record => ?_⟩
          rw [Bool.eq_iff_iff, holds_split_iff, if_pos hnegated, List.all_eq_true]
      | false =>
          have hshort : l.tests.length ≤ 1 :=
            Nat.le_of_not_lt fun hlong => hscattered ⟨rfl, hnegated, hlong⟩
          obtain ⟨test, hone⟩ : ∃ test, l.tests = [test] := by
            rcases htests' : l.tests with _ | ⟨test, _ | ⟨next, rest⟩⟩
            · exact absurd htests' htests
            · exact ⟨test, rfl⟩
            · simp [htests'] at hshort
          have hsplit : l.split = [l] := by
            rw [Literal.split, hone, List.map_singleton, ← hone]
          refine ⟨[l], ?_, fun record => by simp⟩
          rw [itemsOf, if_pos rfl, hnegated, if_neg Bool.false_ne_true, hsplit]
          rfl

/-- A row says what it is written from if nothing in it is written with `or`, or if there is no
other clause beside what is. -/
theorem itemsHold_eq_all {apart : Literal → Bool} {ls : List Literal}
    (htests : ∀ l ∈ ls, l.tests ≠ [])
    (hscattered : (∀ l ∈ ls, ¬ Scattered (apart l) l) ∨ ls.length ≤ 1) (record : Record) :
    itemsHold record (ls.flatMap fun l => itemsOf (apart l) l) =
      ls.all (Literal.holds record) := by
  rcases hscattered with hnone | hshort
  · have hparts : ∃ parts : List Literal,
        (ls.flatMap fun l => itemsOf (apart l) l) = parts.map .clause ∧
        parts.all (Literal.holds record) = ls.all (Literal.holds record) := by
      induction ls with
      | nil => exact ⟨[], rfl, rfl⟩
      | cons l ls ih =>
          obtain ⟨own, hown, howns⟩ :=
            exists_itemsOf_eq_map (htests l List.mem_cons_self) (hnone l List.mem_cons_self)
          obtain ⟨rest, hrest, hrests⟩ := ih
            (fun other hother => htests other (List.mem_cons_of_mem _ hother))
            (fun other hother => hnone other (List.mem_cons_of_mem _ hother))
          refine ⟨own ++ rest, ?_, ?_⟩
          · rw [List.flatMap_cons, hown, hrest, List.map_append]
          · rw [List.all_append, howns, hrests, List.all_cons]
    obtain ⟨parts, hitems, hholds⟩ := hparts
    rw [hitems, itemsHold_map_clause, hholds]
  · rcases ls with _ | ⟨l, _ | ⟨next, rest⟩⟩
    · rfl
    · have hl := htests l List.mem_cons_self
      rw [List.flatMap_singleton, List.all_cons, List.all_nil, Bool.and_true]
      by_cases hscattered : Scattered (apart l) l
      · obtain ⟨hapart, hnegated, -⟩ := hscattered
        have hne : l.split ≠ [] := by simpa [Literal.split] using hl
        rw [itemsOf, if_pos hapart, hnegated, if_neg Bool.false_ne_true,
          itemsHold_intersperse_eq_any record hne, Bool.eq_iff_iff, holds_split_iff, hnegated,
          if_neg Bool.false_ne_true, List.any_eq_true]
      · obtain ⟨parts, hitems, hholds⟩ := exists_itemsOf_eq_map hl hscattered
        rw [hitems, itemsHold_map_clause, hholds]
    · simp at hshort

end Query
end IssueSearch
