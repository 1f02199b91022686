import IssueSearch.Proofs.Request.Accepted
import IssueSearch.Proofs.Request.RoundTrip
import Mathlib.Data.Set.List
/-!
Which values are filters. An object spells a filter if its field is a text, its operator one of
eleven names, its negation left out or a flag, and its value one that the operator's shape takes.
Nothing else does, no object spells two filters, and in every place where filters are read the same
objects spell the same filters.
-/
namespace IssueSearch

/-- The names of the operators of a shape. -/
def Shape.words : Shape → List String
  | .scalar => ["equals", "contains", "startsWith", "endsWith", "greater", "less"]
  | .list => ["in", "notIn"]
  | .range => ["between"]
  | .existence => ["isEmpty", "isNotEmpty"]

/-- The values that an operator of a shape takes; `none` is no value at all. -/
def Shape.Takes : Shape → Option Json → Prop
  | .scalar, value => value = none ∨ value = some .null ∨ ∃ s : Scalar, value = some s.toJson
  | .list, value => (∃ s : Scalar, value = some s.toJson) ∨
      ∃ items, value = some (.arr items) ∧ items ≠ [] ∧
        ∀ item ∈ items, ∃ s : Scalar, item = s.toJson
  | .range, value => ∃ low high : Scalar, value = some (.arr [low.toJson, high.toJson])
  | .existence, _ => True

/-- The values that spell a filter. -/
def Json.SpellsFilter (value : Json) : Prop :=
  ∃ members, ∃ shape : Shape, value = .obj members ∧
    (∃ field, members.lookup "field" = some (.str field)) ∧
    (∃ word ∈ shape.words, members.lookup "operator" = some (.str word)) ∧
    (∀ given, members.lookup "negate" = some given → ∃ b, given.SpellsFlag b) ∧
    shape.Takes (members.lookup "value")

/-- What the value of a condition is written as. A scalar stands for itself, kind and all. -/
inductive Condition.SpelledBy : Condition → Option Json → Prop
  | unset (c : Comparison) : SpelledBy (.compare c none) none
  | null (c : Comparison) : SpelledBy (.compare c none) (some .null)
  | scalar (c : Comparison) (s : Scalar) : SpelledBy (.compare c (some s)) (some s.toJson)
  /-- A scalar by itself is a list of one. -/
  | bare (m : Membership) (s : Scalar) : SpelledBy (.member m s []) (some s.toJson)
  | list (m : Membership) (first : Scalar) (rest : List Scalar) :
      SpelledBy (.member m first rest) (some (.arr ((first :: rest).map Scalar.toJson)))
  | bounds (low high : Scalar) :
      SpelledBy (.between low high) (some (.arr [low.toJson, high.toJson]))
  /-- Whatever is given is ignored. -/
  | presence (p : Presence) (value : Option Json) : SpelledBy (.presence p) value

/-- What a filter is written as. -/
structure Filter.SpelledBy (f : Filter) (members : List (String × Json)) : Prop where
  field : members.lookup "field" = some (.str f.field)
  operator : members.lookup "operator" = some (.str f.operator.name)
  negate : members.lookup "negate" = none ∧ f.negate = false ∨
    ∃ given, members.lookup "negate" = some given ∧ given.SpellsFlag f.negate
  condition : f.condition.SpelledBy (members.lookup "value")

theorem Operator.mem_words_iff {shape : Shape} {word : String} :
    word ∈ shape.words ↔ ∃ o : Operator, o.shape = shape ∧ o.name = word := by
  have hwords : shape.words =
      (Operator.all.filter fun o => decide (o.shape = shape)).map Operator.name := by
    cases shape <;> rfl
  simp only [hwords, List.mem_map, List.mem_filter, Operator.mem_all, true_and, decide_eq_true_iff]

theorem Scalar.toJson_inj {s s' : Scalar} : s.toJson = s'.toJson ↔ s = s' := by
  rw [← Scalar.ofJson?_eq_some_iff, Scalar.ofJson?_toJson, Option.some.injEq]

theorem Condition.shape_operator (c : Condition) : c.operator.shape = c.shape := by
  cases c <;> rfl

namespace Filter

variable {members : List (String × Json)}

theorem readOperator_eq_ok_iff {α : Type} {shape : Shape} {pick : Operator → Option α}
    {value : Json} {a : α} : readOperator shape pick value = .ok a ↔
      ∃ o : Operator, value = .str o.name ∧ pick o = some a := by
  simp only [← Operator.ofJson?_eq_some_iff, readOperator]
  cases Operator.ofJson? value with
  | none => simp [Reading.refuse]
  | some o =>
      cases hpick : pick o with
      | none => simp [Reading.refuse, hpick]
      | some picked => simp [hpick]

theorem readValues_eq_ok_iff {value : Json} {first : Scalar} {rest : List Scalar} :
    readValues value = .ok (first, rest) ↔
      value = first.toJson ∧ rest = [] ∨ value = .arr ((first :: rest).map Scalar.toJson) := by
  cases hscalar : Scalar.ofJson? value with
  | some s =>
      have hread : readValues value = .ok (s, []) := by simp only [readValues, hscalar]
      obtain rfl := Scalar.ofJson?_eq_some_iff.1 hscalar
      have hlist : s.toJson ≠ .arr ((first :: rest).map Scalar.toJson) := by
        cases s <;> exact Json.noConfusion
      rw [hread, or_iff_left hlist, Scalar.toJson_inj]
      simp [eq_comm]
  | none =>
      have hbare : value ≠ first.toJson := by
        intro hvalue
        rw [Scalar.ofJson?_eq_some_iff.2 hvalue] at hscalar
        cases hscalar
      rw [or_iff_right fun hboth => hbare hboth.1]
      cases value with
      | arr items =>
          have hitems : Reading.items Reading.scalar 0 items = .ok (first :: rest) ↔
              items = (first :: rest).map Scalar.toJson := Reading.items_scalar_eq_ok_iff
          rw [Json.arr.injEq, ← hitems]
          simp only [readValues, hscalar]
          cases Reading.items Reading.scalar 0 items with
          | error faults =>
              simp only [reduceCtorEq, iff_false]
              split <;> simp
          | ok scalars => cases scalars <;> simp [Reading.refuse]
      | null | obj | foreign => simp [readValues, Scalar.ofJson?, Reading.refuse]
      | bool | int | float | str => cases hscalar

theorem readBound_eq_ok_iff {i : Nat} {value : Option Json} {s : Scalar} :
    readBound i value = .ok s ↔ value = some s.toJson := by
  cases value with
  | none => simp [readBound]
  | some value =>
      rw [readBound, Reading.below_eq_ok_iff, Reading.scalar_eq_ok_iff, Option.some.injEq]

theorem readBounds_eq_ok_iff {value : Json} {low high : Scalar} :
    readBounds value = .ok (low, high) ↔ value = .arr [low.toJson, high.toJson] := by
  constructor
  · intro hread
    cases value with
    | arr items =>
        rw [readBounds] at hread
        split at hread
        · cases hread
        · obtain ⟨hlow, hhigh⟩ := Reading.both_eq_ok_iff.1 hread
          rw [readBound_eq_ok_iff] at hlow hhigh
          rcases items with _ | ⟨first, _ | ⟨second, _ | ⟨third, rest⟩⟩⟩
          · cases hlow
          · cases hhigh
          · obtain rfl := Option.some.inj hlow
            obtain rfl := Option.some.inj hhigh
            rfl
          · rename_i hshort
            simp at hshort
    | null | bool | int | float | str | obj | foreign => cases hread
  · rintro rfl
    exact readBounds_arr low high

/-! ### The value of each shape -/

theorem compare_spelledBy_iff {c : Comparison} {s : Option Scalar} :
    (Condition.compare c s).SpelledBy (members.lookup "value") ↔
      (FieldName.single "value").withDefault none (.orNull .scalar) members = .ok s := by
  simp only [FieldName.withDefault_single_eq_ok_iff, Reading.orNull_eq_ok_iff,
    Reading.scalar_eq_ok_iff]
  generalize members.lookup "value" = value
  constructor
  · intro hspelled
    cases hspelled with
    | unset => exact .inl ⟨rfl, rfl⟩
    | null => exact .inr ⟨.null, rfl, .inl ⟨rfl, rfl⟩⟩
    | scalar c s =>
        have hvalue : s.toJson ≠ .null := by cases s <;> simp [Scalar.toJson]
        exact .inr ⟨s.toJson, rfl, .inr ⟨hvalue, s, rfl, rfl⟩⟩
  · rintro (⟨rfl, rfl⟩ | ⟨given, rfl, ⟨rfl, rfl⟩ | ⟨-, s, rfl, rfl⟩⟩)
    · exact .unset c
    · exact .null c
    · exact .scalar c s

theorem member_spelledBy_iff {m : Membership} {first : Scalar} {rest : List Scalar} :
    (Condition.member m first rest).SpelledBy (members.lookup "value") ↔
      (FieldName.single "value").required readValues members = .ok (first, rest) := by
  simp only [FieldName.required_single_eq_ok_iff, readValues_eq_ok_iff]
  generalize members.lookup "value" = value
  constructor
  · intro hspelled
    cases hspelled with
    | bare => exact ⟨_, rfl, .inl ⟨rfl, rfl⟩⟩
    | list => exact ⟨_, rfl, .inr rfl⟩
  · rintro ⟨given, rfl, ⟨rfl, rfl⟩ | rfl⟩
    · exact .bare m first
    · exact .list m first rest

theorem between_spelledBy_iff {low high : Scalar} :
    (Condition.between low high).SpelledBy (members.lookup "value") ↔
      (FieldName.single "value").required readBounds members = .ok (low, high) := by
  simp only [FieldName.required_single_eq_ok_iff, readBounds_eq_ok_iff]
  generalize members.lookup "value" = value
  constructor
  · intro hspelled
    cases hspelled with
    | bounds => exact ⟨_, rfl, rfl⟩
  · rintro ⟨given, rfl, rfl⟩
    exact .bounds low high

/-- Some condition with an operator is spelled by a value exactly if the operator takes the
value. -/
theorem exists_spelledBy_iff {o : Operator} {value : Option Json} :
    (∃ c : Condition, c.operator = o ∧ c.SpelledBy value) ↔ o.shape.Takes value := by
  constructor
  · rintro ⟨c, rfl, hspelled⟩
    cases hspelled with
    | unset c => exact .inl rfl
    | null c => exact .inr (.inl rfl)
    | scalar c s => exact .inr (.inr ⟨s, rfl⟩)
    | bare m s => exact .inl ⟨s, rfl⟩
    | list m first rest =>
        refine .inr ⟨_, rfl, by simp, fun item hitem => ?_⟩
        obtain ⟨s, -, rfl⟩ := List.mem_map.1 hitem
        exact ⟨s, rfl⟩
    | bounds low high => exact ⟨low, high, rfl⟩
    | presence p value => trivial
  · intro htakes
    rcases o with c | m | _ | p
    · rcases htakes with rfl | rfl | ⟨s, rfl⟩
      · exact ⟨.compare c none, rfl, .unset c⟩
      · exact ⟨.compare c none, rfl, .null c⟩
      · exact ⟨.compare c (some s), rfl, .scalar c s⟩
    · rcases htakes with ⟨s, rfl⟩ | ⟨items, rfl, hitems, hscalars⟩
      · exact ⟨.member m s [], rfl, .bare m s⟩
      · obtain ⟨scalars, rfl⟩ : items ∈ Set.range (List.map Scalar.toJson) := by
          rw [Set.range_list_map]
          exact fun item hitem => (hscalars item hitem).imp fun s hs => hs.symm
        cases scalars with
        | nil => exact absurd rfl hitems
        | cons first rest => exact ⟨.member m first rest, rfl, .list m first rest⟩
    · obtain ⟨low, high, rfl⟩ := htakes
      exact ⟨.between low high, rfl, .bounds low high⟩
    · exact ⟨.presence p, rfl, .presence p value⟩

/-! ### Filters -/

/-- The condition picked by an operator is one with that operator. -/
theorem comparison?_eq_some_iff {o : Operator} {c : Comparison} :
    comparison? o = some c ↔ o = .compare c := by
  cases o <;> simp [comparison?]

theorem membership?_eq_some_iff {o : Operator} {m : Membership} :
    membership? o = some m ↔ o = .member m := by
  cases o <;> simp [membership?]

theorem between?_eq_some_iff {o : Operator} {u : Unit} : between? o = some u ↔ o = .between := by
  cases o <;> simp [between?]

theorem presence?_eq_some_iff {o : Operator} {p : Presence} :
    presence? o = some p ↔ o = .presence p := by
  cases o <;> simp [presence?]

/-- The members that every filter has, for an operator that is picked for one thing only. -/
theorem readHead_eq_ok_iff {α : Type} {shape : Shape} {pick : Operator → Option α} {a : α}
    {f : Filter} (hpick : ∀ other, pick other = some a ↔ other = f.operator) :
    readHead shape pick members = .ok (f.field, a, f.negate) ↔
      members.lookup "field" = some (.str f.field) ∧
      members.lookup "operator" = some (.str f.operator.name) ∧
      (members.lookup "negate" = none ∧ f.negate = false ∨
        ∃ given, members.lookup "negate" = some given ∧ given.SpellsFlag f.negate) := by
  simp only [readHead, Reading.both_eq_ok_iff, FieldName.required_single_eq_ok_iff,
    FieldName.withDefault_single_eq_ok_iff, Reading.text_eq_ok_iff, readOperator_eq_ok_iff,
    Reading.flag_eq_ok_iff, hpick, exists_eq_right]

/-- These members and a value that makes a condition of the shape are a filter of the shape. -/
theorem map_readHead_eq_ok_iff {α β : Type} {shape : Shape} {pick : Operator → Option α}
    {reading : Reading β} {f : Filter} (make : α → β → Condition)
    (hpick : ∀ a b other, pick other = some a ↔ other = (make a b).operator)
    (hvalue : ∀ a b, (make a b).SpelledBy (members.lookup "value") ↔ reading = .ok b)
    (hshape : ∀ condition : Condition, condition.shape = shape ↔ ∃ a b, condition = make a b) :
    (((readHead shape pick members).both reading).map fun parts =>
      ⟨parts.1.1, parts.1.2.2, make parts.1.2.1 parts.2⟩) = .ok f ↔
      f.condition.shape = shape ∧ f.SpelledBy members := by
  rw [Reading.map_eq_ok_iff, hshape]
  constructor
  · rintro ⟨⟨⟨field, a, negate⟩, b⟩, hread, rfl⟩
    obtain ⟨hhead, hb⟩ := Reading.both_eq_ok_iff.1 hread
    obtain ⟨hfield, hoperator, hnegate⟩ :=
      (readHead_eq_ok_iff (f := ⟨field, negate, make a b⟩) (hpick a b)).1 hhead
    exact ⟨⟨a, b, rfl⟩, hfield, hoperator, hnegate, (hvalue a b).2 hb⟩
  · rcases f with ⟨field, negate, condition⟩
    rintro ⟨⟨a, b, rfl⟩, hfield, hoperator, hnegate, hcondition⟩
    refine ⟨((field, a, negate), b), Reading.both_eq_ok_iff.2 ⟨?_, (hvalue a b).1 hcondition⟩, rfl⟩
    exact (readHead_eq_ok_iff (hpick a b)).2 ⟨hfield, hoperator, hnegate⟩

/-- The members of an object are read as a filter of a shape exactly if they spell it. -/
theorem ofMembers_eq_ok_iff {shape : Shape} {f : Filter} :
    ofMembers members shape = .ok f ↔ f.condition.shape = shape ∧ f.SpelledBy members := by
  cases shape with
  | scalar =>
      apply map_readHead_eq_ok_iff Condition.compare
      · exact fun _ _ _ => comparison?_eq_some_iff
      · exact fun _ _ => compare_spelledBy_iff
      · intro condition
        cases condition <;> simp [Condition.shape]
  | list =>
      apply map_readHead_eq_ok_iff fun m (values : Scalar × List Scalar) =>
        Condition.member m values.1 values.2
      · exact fun _ _ _ => membership?_eq_some_iff
      · exact fun _ _ => member_spelledBy_iff
      · intro condition
        cases condition <;> simp [Condition.shape]
  | range =>
      apply map_readHead_eq_ok_iff fun (_ : Unit) (bounds : Scalar × Scalar) =>
        Condition.between bounds.1 bounds.2
      · exact fun _ _ _ => between?_eq_some_iff
      · exact fun _ _ => between_spelledBy_iff
      · intro condition
        cases condition <;> simp [Condition.shape]
  | existence =>
      rcases f with ⟨field, negate, condition⟩
      rw [ofMembers, Reading.map_eq_ok_iff]
      constructor
      · rintro ⟨⟨field, p, negate⟩, hread, ⟨⟩⟩
        obtain ⟨hfield, hoperator, hnegate⟩ := (readHead_eq_ok_iff
          (f := ⟨field, negate, .presence p⟩) (fun _ => presence?_eq_some_iff)).1 hread
        exact ⟨rfl, hfield, hoperator, hnegate, .presence p _⟩
      · rintro ⟨hshape, hfield, hoperator, hnegate, -⟩
        cases condition with
        | presence p =>
            refine ⟨(field, p, negate), ?_, rfl⟩
            exact (readHead_eq_ok_iff fun _ => presence?_eq_some_iff).2
              ⟨hfield, hoperator, hnegate⟩
        | compare | member | between => cases hshape

/-! ### Where filters are read -/

theorem operatorOf?_eq_some_iff {value : Json} {o : Operator} : operatorOf? value = some o ↔
    ∃ members, value = .obj members ∧ members.lookup "operator" = some (.str o.name) := by
  cases value with
  | obj members =>
      simp only [operatorOf?, Option.bind_eq_some_iff, Operator.ofJson?_eq_some_iff,
        exists_eq_right]
      simp
  | null | bool | int | float | str | arr | foreign => simp [operatorOf?]

theorem read_eq_ok_iff {value : Json} {f : Filter} :
    read value = .ok f ↔ ∃ members, value = .obj members ∧ f.SpelledBy members := by
  constructor
  · intro hread
    rw [read] at hread
    cases hoperator : operatorOf? value with
    | none =>
        rw [hoperator] at hread
        cases hread
    | some o =>
        simp only [hoperator, Reading.below_eq_ok_iff] at hread
        obtain ⟨members, rfl, -⟩ := operatorOf?_eq_some_iff.1 hoperator
        have hshape : ofMembers members o.shape = .ok f := hread
        exact ⟨members, rfl, (ofMembers_eq_ok_iff.1 hshape).2⟩
  · rintro ⟨members, rfl, hspelled⟩
    have hoperator : operatorOf? (.obj members) = some f.operator :=
      operatorOf?_eq_some_iff.2 ⟨members, rfl, hspelled.operator⟩
    have hshape : ofShape f.operator.shape (.obj members) = .ok f :=
      ofMembers_eq_ok_iff.2 ⟨f.condition.shape_operator.symm, hspelled⟩
    simp only [read, hoperator, hshape, Reading.below]

/-- A filter is built from a value exactly if the value reads as it. -/
theorem build_eq_ok_iff_read {value : Json} {f : Filter} :
    build value = .ok f ↔ read value = .ok f := by
  have hmap : (read value).mapError BuildError.malformed = .ok f ↔ read value = .ok f := by
    cases read value <;> simp [Except.mapError]
  cases value with
  | obj members =>
      rw [← hmap]
      cases hoperator : Operator.ofJson? ((members.lookup "operator").getD .null) with
      | some o =>
          simp only [build, Operator.parse, hoperator]
          rfl
      | none =>
          have hrefused : operatorOf? (.obj members) = none := by
            rw [operatorOf?]
            cases hlookup : members.lookup "operator" with
            | none => rfl
            | some raw =>
                rw [hlookup] at hoperator
                exact hoperator
          apply iff_of_false
          · intro hbuilt
            simp only [build, Operator.parse, hoperator] at hbuilt
            cases hbuilt
          · intro hread
            rw [hmap, read, hrefused] at hread
            cases hread
  | null | bool | int | float | str | arr | foreign => exact hmap

end Filter

theorem Reading.list_eq_ok_iff {α : Type} {read : Json → Reading α} {value : Json} {as : List α} :
    Reading.list read value = .ok as ↔
      ∃ items, value = .arr items ∧ List.Forall₂ (fun item a => read item = .ok a) items as := by
  cases value with
  | arr items => simp [Reading.list, Reading.items_eq_ok_iff]
  | null | bool | int | float | str | obj | foreign => simp [Reading.list, Reading.refuse]

theorem FieldName.withDefault_cons_of_ne {α : Type} {name : FieldName} {usual : α}
    {read : Json → Reading α} {key : String} (hwire : name.wire ≠ key) (hplain : name.plain ≠ key)
    (value : Json) (members : List (String × Json)) :
    name.withDefault usual read ((key, value) :: members) =
      name.withDefault usual read members := by
  simp only [withDefault, find?, List.lookup_cons, beq_eq_false_iff_ne.2 hwire,
    beq_eq_false_iff_ne.2 hplain]

namespace Request

variable {members : List (String × Json)} {r : Request}

theorem ofMembers_eq_ok_iff : ofMembers members = .ok r ↔
    scopeIdName.withDefault none (.orNull .text) members = .ok r.scopeId ∧
    filtersName.withDefault [] (.list Filter.read) members = .ok r.filters ∧
    textSearchName.withDefault none (.orNull .text) members = .ok r.textSearch ∧
    sortingName.withDefault [] (.list SortKey.read) members = .ok r.sorting ∧
    paginationName.withDefault {} Pagination.read members = .ok r.pagination ∧
    fieldSelectorName.withDefault none (.orNull (.list .text)) members = .ok r.fieldSelector ∧
    includeMetadataName.withDefault false .flag members = .ok r.includeMetadata := by
  simp only [ofMembers, Reading.map_eq_ok_iff, Reading.both_eq_ok_iff]
  constructor
  · rintro ⟨parts, hparts, rfl⟩
    exact hparts
  · intro hparts
    exact ⟨(r.scopeId, r.filters, r.textSearch, r.sorting, r.pagination, r.fieldSelector,
      r.includeMetadata), hparts, rfl⟩

/-- A request with a list of filters is read exactly if each of them can be built and the request
without them is read. -/
theorem ofMembers_filters_iff {items : List Json}
    (hitems : members.lookup "filters" = some (.arr items)) :
    ofMembers members = .ok r ↔
      List.Forall₂ (fun item f => Filter.build item = .ok f) items r.filters ∧
      ofMembers (("filters", .arr []) :: members) = .ok { r with filters := [] } := by
  have hfilters : filtersName.withDefault [] (.list Filter.read) members = .ok r.filters ↔
      List.Forall₂ (fun item f => Filter.build item = .ok f) items r.filters := by
    simp only [filtersName, FieldName.withDefault_single_eq_ok_iff, hitems, Option.some.injEq,
      exists_eq_left', Reading.list_eq_ok_iff, Json.arr.injEq, Filter.build_eq_ok_iff_read]
    simp
  have hnone : filtersName.withDefault [] (.list Filter.read) (("filters", .arr []) :: members) =
      .ok [] := rfl
  rw [ofMembers_eq_ok_iff, ofMembers_eq_ok_iff, hfilters, hnone,
    scopeIdName.withDefault_cons_of_ne (by decide) (by decide),
    textSearchName.withDefault_cons_of_ne (by decide) (by decide),
    sortingName.withDefault_cons_of_ne (by decide) (by decide),
    paginationName.withDefault_cons_of_ne (by decide) (by decide),
    fieldSelectorName.withDefault_cons_of_ne (by decide) (by decide),
    includeMetadataName.withDefault_cons_of_ne (by decide) (by decide)]
  constructor
  · rintro ⟨hscope, hbuilt, hrest⟩
    exact ⟨hbuilt, hscope, rfl, hrest⟩
  · rintro ⟨hbuilt, hscope, -, hrest⟩
    exact ⟨hscope, hbuilt, hrest⟩

end Request

namespace Filter

theorem exists_build_iff {value : Json} : (∃ f, build value = .ok f) ↔ value.SpellsFilter := by
  simp only [build_eq_ok_iff_read, read_eq_ok_iff]
  constructor
  · rintro ⟨f, members, rfl, hfield, hoperator, hnegate, hcondition⟩
    refine ⟨members, f.operator.shape, rfl, ⟨_, hfield⟩, ⟨_, ?_, hoperator⟩, ?_, ?_⟩
    · exact Operator.mem_words_iff.2 ⟨f.operator, rfl, rfl⟩
    · intro given hgiven
      rcases hnegate with ⟨habsent, -⟩ | ⟨given', hgiven', hflag⟩
      · rw [habsent] at hgiven
        cases hgiven
      · obtain rfl := Option.some.inj (hgiven'.symm.trans hgiven)
        exact ⟨_, hflag⟩
    · exact exists_spelledBy_iff.1 ⟨f.condition, rfl, hcondition⟩
  · rintro ⟨members, shape, rfl, ⟨field, hfield⟩, ⟨word, hword, hoperator⟩, hnegate, htakes⟩
    obtain ⟨o, rfl, rfl⟩ := Operator.mem_words_iff.1 hword
    obtain ⟨condition, rfl, hcondition⟩ := exists_spelledBy_iff.2 htakes
    cases hgiven : members.lookup "negate" with
    | none =>
        exact ⟨⟨field, false, condition⟩, members, rfl, hfield, hoperator, .inl ⟨hgiven, rfl⟩,
          hcondition⟩
    | some given =>
        obtain ⟨b, hflag⟩ := hnegate given hgiven
        exact ⟨⟨field, b, condition⟩, members, rfl, hfield, hoperator,
          .inr ⟨given, hgiven, hflag⟩, hcondition⟩

theorem rebuild_eq (f : Filter) : rebuild f = .ok f := by
  have hshape : f.condition.shape = f.operator.shape := f.condition.shape_operator.symm
  simp only [rebuild, ofBuilt, if_pos hshape, Reading.below, Except.mapError]

/-- A filter is built from exactly the values that spell one, and the filter that is built is the
one that the value spells: the condition is of the shape of its operator, every scalar is the very
value that was given, and the negation is what its flag says. To build a filter again, from itself
or from the object that is written of it, gives the same filter. The list of filters of a request
takes exactly the objects from which filters can be built, and makes the same filters of them. -/
theorem build_accepts (value : Json) :
    ((∃ f, build value = .ok f) ↔ value.SpellsFilter) ∧
    (∀ f, build value = .ok f ↔ ∃ members, value = .obj members ∧ f.SpelledBy members) ∧
    (∀ f : Filter, f.condition.shape = f.operator.shape ∧
      f.operator.name ∈ f.condition.shape.words ∧
      rebuild f = .ok f ∧ build f.toJson = .ok f) ∧
    ∀ members items (r : Request), value = .obj members →
      members.lookup "filters" = some (.arr items) →
      (Request.read value = .ok r ↔
        List.Forall₂ (fun item f => build item = .ok f) items r.filters ∧
        Request.read (.obj (("filters", .arr []) :: members)) = .ok { r with filters := [] }) := by
  refine ⟨exists_build_iff, fun f => build_eq_ok_iff_read.trans read_eq_ok_iff, fun f => ?_, ?_⟩
  · have hshape : f.condition.shape = f.operator.shape := f.condition.shape_operator.symm
    refine ⟨hshape, ?_, f.rebuild_eq, build_eq_ok_iff_read.2 f.read_toJson⟩
    exact Operator.mem_words_iff.2 ⟨f.operator, hshape.symm, rfl⟩
  · rintro members items r rfl hitems
    exact Request.ofMembers_filters_iff hitems

end Filter
end IssueSearch
