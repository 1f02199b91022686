import IssueSearch.Proofs.Request.Alike
import IssueSearch.Request.Reading
/-!
What is written of a request reads back as that request. The object of a request keeps the kind of
every value, tells what was left out from what was given, and so tells requests apart exactly: two
requests with one object are one request, and two objects are the same, doubles compared by their
text, only if the requests are alike.
-/
namespace IssueSearch

namespace Reading

variable {α : Type} {read : Json → Reading α} {write : α → Json}

theorem both_ok {β : Type} (a : α) (b : β) :
    both (.ok a : Reading α) (.ok b) = .ok (a, b) := rfl

/-- Written items read back if each of them does. -/
theorem items_map {xs : List α} (heach : ∀ x ∈ xs, read (write x) = .ok x) (start : Nat) :
    items read start (xs.map write) = .ok xs := by
  induction xs generalizing start with
  | nil => rfl
  | cons x xs ih =>
      have hrest : items read (start + 1) (xs.map write) = .ok xs := by
        apply ih
        intro y hy
        exact heach y (List.mem_cons_of_mem x hy)
      rw [List.map_cons, items, heach x List.mem_cons_self, hrest]
      rfl

theorem list_arr_map {xs : List α} (heach : ∀ x ∈ xs, read (write x) = .ok x) :
    list read (.arr (xs.map write)) = .ok xs := items_map heach 0

theorem orNull_of_ne_null {value : Json} (hvalue : value ≠ .null) :
    orNull read value = (read value).map some := by
  cases value with
  | null => exact absurd rfl hvalue
  | bool | int | float | str | arr | obj | foreign => rfl

/-- What may be left out reads back, whether it was or not. -/
theorem orNull_ofOption (heach : ∀ a, read (write a) = .ok a) (hnull : ∀ a, write a ≠ .null)
    (a : Option α) : orNull read (Json.ofOption write a) = .ok a := by
  cases a with
  | none => rfl
  | some a =>
      rw [Json.ofOption, orNull_of_ne_null (hnull a), heach a]
      rfl

end Reading

namespace FieldName

variable {α : Type} {read : Json → Reading α} {members : List (String × Json)} {name : FieldName}
  {key : String} {value : Json} {a : α}

theorem required_of_find? (hfound : name.find? members = some (key, value))
    (hread : read value = .ok a) : name.required read members = .ok a := by
  rw [required, hfound]
  simp only [hread, Reading.below]

theorem withDefault_of_find? {usual : α} (hfound : name.find? members = some (key, value))
    (hread : read value = .ok a) : name.withDefault usual read members = .ok a := by
  rw [withDefault, hfound]
  simp only [hread, Reading.below]

end FieldName

theorem Scalar.read_toJson (s : Scalar) : Reading.scalar s.toJson = .ok s := by
  rw [Reading.scalar, Scalar.ofJson?_toJson]

theorem Direction.read_name (d : Direction) : Direction.read (.str d.name) = .ok d := by
  cases d <;> rfl

theorem SortKey.read_toJson (k : SortKey) : SortKey.read k.toJson = .ok k := by
  have hfield : (FieldName.single "field").required Reading.text
      [("field", .str k.field), ("direction", .str k.direction.name)] = .ok k.field :=
    FieldName.required_of_find? rfl rfl
  have hdirection : (FieldName.single "direction").withDefault .ascending Direction.read
      [("field", .str k.field), ("direction", .str k.direction.name)] = .ok k.direction :=
    FieldName.withDefault_of_find? rfl k.direction.read_name
  simp only [SortKey.read, SortKey.toJson, Reading.object, Except.bind, hfield, hdirection,
    Reading.both_ok]
  rfl

theorem Reading.count_int {least : Nat} (n : { n : Nat // least ≤ n }) :
    Reading.count least (.int n.val) = .ok n := by
  have hleast : (least : Int) ≤ n.val := Int.ofNat_le.2 n.property
  simp only [Reading.count, Reading.integer, Except.bind, dif_pos hleast, Int.toNat_natCast]

theorem Pagination.read_toJson (p : Pagination) : Pagination.read p.toJson = .ok p := by
  have hlimit : Reading.orNull (Reading.count 1)
      (Json.ofOption (fun n => .int n.val) p.limit) = .ok p.limit :=
    Reading.orNull_ofOption Reading.count_int (by simp) p.limit
  have hoffset : Reading.orNull (Reading.count 0)
      (Json.ofOption (fun (n : Nat) => .int n) p.offset) =
        .ok (p.offset.map fun n => ⟨n, Nat.zero_le n⟩) := by
    cases p.offset with
    | none => rfl
    | some n =>
        rw [Json.ofOption, Reading.orNull_of_ne_null (by simp),
          Reading.count_int ⟨n, Nat.zero_le n⟩]
        rfl
  have hreadLimit : (FieldName.single "limit").withDefault none (.orNull (.count 1))
      [("limit", Json.ofOption (fun n => .int n.val) p.limit),
        ("offset", Json.ofOption (fun (n : Nat) => .int n) p.offset)] = .ok p.limit :=
    FieldName.withDefault_of_find? rfl hlimit
  have hreadOffset : (FieldName.single "offset").withDefault none (.orNull (.count 0))
      [("limit", Json.ofOption (fun n => .int n.val) p.limit),
        ("offset", Json.ofOption (fun (n : Nat) => .int n) p.offset)] =
          .ok (p.offset.map fun n => ⟨n, Nat.zero_le n⟩) :=
    FieldName.withDefault_of_find? rfl hoffset
  simp only [Pagination.read, Pagination.toJson, Reading.object, Except.bind, hreadLimit,
    hreadOffset, Reading.both_ok, Except.map, Option.map_map, Function.comp_def,
    Option.map_id_fun', id_eq]

namespace Filter

/-- The members of a written filter begin with those that every filter has. -/
def head (f : Filter) : List (String × Json) :=
  [("field", .str f.field), ("operator", .str f.operator.name), ("negate", .bool f.negate)]

theorem readHead_head {α : Type} {pick : Operator → Option α} {a : α} {f : Filter}
    (hpick : pick f.operator = some a) (shape : Shape) (rest : List (String × Json)) :
    readHead shape pick (f.head ++ rest) = .ok (f.field, a, f.negate) := by
  have hoperator : readOperator shape pick (.str f.operator.name) = .ok a := by
    simp only [readOperator, Operator.ofJson?, Operator.ofName?_name, hpick]
  have hreadField : (FieldName.single "field").required Reading.text (f.head ++ rest) =
      .ok f.field := FieldName.required_of_find? rfl rfl
  have hreadOperator : (FieldName.single "operator").required (readOperator shape pick)
      (f.head ++ rest) = .ok a := FieldName.required_of_find? rfl hoperator
  have hreadNegate : (FieldName.single "negate").withDefault false Reading.flag
      (f.head ++ rest) = .ok f.negate := FieldName.withDefault_of_find? rfl rfl
  simp only [readHead, hreadField, hreadOperator, hreadNegate, Reading.both_ok]

theorem readValues_arr (first : Scalar) (rest : List Scalar) :
    readValues (.arr ((first :: rest).map Scalar.toJson)) = .ok (first, rest) := by
  have hitems : Reading.items Reading.scalar 0 ((first :: rest).map Scalar.toJson) =
      .ok (first :: rest) := Reading.items_map (fun s _ => s.read_toJson) 0
  simp only [readValues, Scalar.ofJson?, hitems]

theorem readBounds_arr (low high : Scalar) :
    readBounds (.arr [low.toJson, high.toJson]) = .ok (low, high) := by
  have hlow : readBound 0 (some low.toJson) = .ok low := by
    rw [readBound, low.read_toJson]
    rfl
  have hhigh : readBound 1 (some high.toJson) = .ok high := by
    rw [readBound, high.read_toJson]
    rfl
  have hshort : ¬ 2 < [low.toJson, high.toJson].length := by simp
  rw [readBounds, if_neg hshort]
  simp only [List.getElem?_cons_zero, List.getElem?_cons_succ, hlow, hhigh, Reading.both_ok]

theorem orNull_scalar (value : Option Scalar) :
    Reading.orNull Reading.scalar ((value.map Scalar.toJson).getD .null) = .ok value := by
  cases value with
  | none => rfl
  | some s =>
      have hvalue : s.toJson ≠ .null := by cases s <;> simp [Scalar.toJson]
      rw [Option.map_some, Option.getD_some, Reading.orNull_of_ne_null hvalue, s.read_toJson]
      rfl

/-- A written filter reads back in the shape of its operator. -/
theorem ofMembers_toJson (f : Filter) :
    ofMembers (f.head ++ f.condition.valueMembers) f.operator.shape = .ok f := by
  rcases f with ⟨field, negate, condition⟩
  cases condition with
  | compare c value =>
      have hhead : readHead .scalar comparison? (head ⟨field, negate, .compare c value⟩ ++
          (Condition.compare c value).valueMembers) = .ok (field, c, negate) :=
        readHead_head (by rfl) _ _
      have hvalue : (FieldName.single "value").withDefault none (Reading.orNull Reading.scalar)
          (head ⟨field, negate, .compare c value⟩ ++ (Condition.compare c value).valueMembers) =
            .ok value := FieldName.withDefault_of_find? rfl (orNull_scalar value)
      simp only [operator, Condition.operator, Operator.shape, ofMembers, hhead, hvalue,
        Reading.both_ok, Except.map]
  | member m first rest =>
      have hhead : readHead .list membership? (head ⟨field, negate, .member m first rest⟩ ++
          (Condition.member m first rest).valueMembers) = .ok (field, m, negate) :=
        readHead_head (by rfl) _ _
      have hvalue : (FieldName.single "value").required readValues
          (head ⟨field, negate, .member m first rest⟩ ++
            (Condition.member m first rest).valueMembers) = .ok (first, rest) :=
        FieldName.required_of_find? rfl (readValues_arr first rest)
      simp only [operator, Condition.operator, Operator.shape, ofMembers, hhead, hvalue,
        Reading.both_ok, Except.map]
  | between low high =>
      have hhead : readHead .range between? (head ⟨field, negate, .between low high⟩ ++
          (Condition.between low high).valueMembers) = .ok (field, (), negate) :=
        readHead_head (by rfl) _ _
      have hvalue : (FieldName.single "value").required readBounds
          (head ⟨field, negate, .between low high⟩ ++
            (Condition.between low high).valueMembers) = .ok (low, high) :=
        FieldName.required_of_find? rfl (readBounds_arr low high)
      simp only [operator, Condition.operator, Operator.shape, ofMembers, hhead, hvalue,
        Reading.both_ok, Except.map]
  | presence p =>
      have hhead : readHead .existence presence? (head ⟨field, negate, .presence p⟩ ++
          (Condition.presence p).valueMembers) = .ok (field, p, negate) :=
        readHead_head (by rfl) _ _
      simp only [operator, Condition.operator, Operator.shape, ofMembers, hhead, Except.map]

theorem operatorOf?_toJson (f : Filter) : operatorOf? f.toJson = some f.operator :=
  f.operator.ofName?_name

theorem read_toJson (f : Filter) : read f.toJson = .ok f := by
  have hshape : ofShape f.operator.shape f.toJson = .ok f := f.ofMembers_toJson
  rw [read, operatorOf?_toJson]
  simp only [hshape, Reading.below]

end Filter

namespace Request

/-- The members of a written request. -/
def members (r : Request) : List (String × Json) := [
  ("scopeId", Json.ofOption .str r.scopeId),
  ("filters", .arr (r.filters.map Filter.toJson)),
  ("textSearch", Json.ofOption .str r.textSearch),
  ("sorting", .arr (r.sorting.map SortKey.toJson)),
  ("pagination", r.pagination.toJson),
  ("fieldSelector", Json.ofOption (fun fields => .arr (fields.map .str)) r.fieldSelector),
  ("includeMetadata", .bool r.includeMetadata)]

theorem ofMembers_members (r : Request) : ofMembers r.members = .ok r := by
  have htext : ∀ s : Option String, Reading.orNull Reading.text (Json.ofOption .str s) = .ok s :=
    Reading.orNull_ofOption (fun _ => rfl) (by simp)
  have hlist : ∀ fields : List String,
      Reading.list Reading.text (.arr (fields.map .str)) = .ok fields := by
    intro fields
    apply Reading.list_arr_map
    intro field _
    rfl
  have hfields : Reading.orNull (Reading.list Reading.text)
      (Json.ofOption (fun fields => .arr (fields.map .str)) r.fieldSelector) =
        .ok r.fieldSelector := Reading.orNull_ofOption hlist (by simp) _
  have hscope : scopeIdName.withDefault none (.orNull .text) r.members = .ok r.scopeId :=
    FieldName.withDefault_of_find? rfl (htext _)
  have hfilters : filtersName.withDefault [] (.list Filter.read) r.members = .ok r.filters :=
    FieldName.withDefault_of_find? rfl (Reading.list_arr_map fun f _ => f.read_toJson)
  have hsearch : textSearchName.withDefault none (.orNull .text) r.members = .ok r.textSearch :=
    FieldName.withDefault_of_find? rfl (htext _)
  have hsorting : sortingName.withDefault [] (.list SortKey.read) r.members = .ok r.sorting :=
    FieldName.withDefault_of_find? rfl (Reading.list_arr_map fun k _ => k.read_toJson)
  have hpagination : paginationName.withDefault {} Pagination.read r.members = .ok r.pagination :=
    FieldName.withDefault_of_find? rfl r.pagination.read_toJson
  have hselector : fieldSelectorName.withDefault none (.orNull (.list .text)) r.members =
      .ok r.fieldSelector := FieldName.withDefault_of_find? rfl hfields
  have hmetadata : includeMetadataName.withDefault false .flag r.members =
      .ok r.includeMetadata := FieldName.withDefault_of_find? rfl rfl
  simp only [ofMembers, hscope, hfilters, hsearch, hsorting, hpagination, hselector, hmetadata,
    Reading.both_ok, Except.map]

theorem read_toJson (r : Request) : read r.toJson = .ok r := r.ofMembers_members

/-- A request reads back from its object as it was, and its object tells it from every other
request: requests with one object are one request, and objects are the same up to the order of
members and the text of doubles exactly if the requests are alike. -/
theorem toJson_roundTrip (r r' : Request) :
    read r.toJson = .ok r ∧ (r.toJson = r'.toJson ↔ r = r') ∧
      (Json.Same r.toJson r'.toJson ↔ r.Alike r') := by
  refine ⟨r.read_toJson, ⟨fun heq => ?_, fun heq => heq ▸ rfl⟩, alike_of_same, Alike.same⟩
  have hread := r.read_toJson
  rw [heq, r'.read_toJson] at hread
  exact (Except.ok.inj hread).symm

end Request
end IssueSearch
