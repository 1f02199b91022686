import IssueSearch.Proofs.Json.Canonical
import IssueSearch.Request.Writing
/-!
Requests told apart by their objects. The object of a request is proper, and two requests whose
objects are the same are alike: they agree in everything, doubles being compared by their text.
-/
namespace IssueSearch

/-- Values of one kind with one text. -/
inductive Scalar.Alike : Scalar → Scalar → Prop
  | bool (b : Bool) : Alike (.bool b) (.bool b)
  | int (n : Int) : Alike (.int n) (.int n)
  | float {x y : Float} (text : Decimal.text x = Decimal.text y) : Alike (.float x) (.float y)
  | str (s : String) : Alike (.str s) (.str s)

/-- Filters of one field and operator with values alike. -/
structure Filter.Alike (f f' : Filter) : Prop where
  field : f.field = f'.field
  negate : f.negate = f'.negate
  operator : f.operator = f'.operator
  values : List.Forall₂ Scalar.Alike f.condition.values f'.condition.values

/-- Requests that agree in everything but the doubles in their filters, and in the texts of
those. -/
structure Request.Alike (r r' : Request) : Prop where
  scopeId : r.scopeId = r'.scopeId
  filters : List.Forall₂ Filter.Alike r.filters r'.filters
  textSearch : r.textSearch = r'.textSearch
  sorting : r.sorting = r'.sorting
  pagination : r.pagination = r'.pagination
  fieldSelector : r.fieldSelector = r'.fieldSelector
  includeMetadata : r.includeMetadata = r'.includeMetadata

theorem Scalar.Alike.refl (s : Scalar) : Scalar.Alike s s := by
  cases s with
  | bool b => exact .bool b
  | int n => exact .int n
  | float x => exact .float rfl
  | str s => exact .str s

theorem Scalar.Alike.text_eq {s s' : Scalar} (halike : Scalar.Alike s s') :
    s.text = s'.text := by
  cases halike with
  | bool | int | str => rfl
  | float text => exact text

theorem Scalar.toJson_proper (s : Scalar) : s.toJson.Proper := by
  cases s with
  | bool b => exact .bool b
  | int n => exact .int n
  | float x => exact .float x
  | str s => exact .str s

namespace Json

theorem Proper.arr_map {α : Type} {write : α → Json} {items : List α}
    (heach : ∀ item ∈ items, (write item).Proper) : Proper (.arr (items.map write)) := by
  refine .arr fun json hjson => ?_
  obtain ⟨item, hitem, rfl⟩ := List.mem_map.1 hjson
  exact heach item hitem

theorem Proper.ofOption {α : Type} {write : α → Json} (hproper : ∀ a, (write a).Proper)
    (a : Option α) : Proper (Json.ofOption write a) := by
  cases a with
  | none => exact .null
  | some a => exact hproper a

theorem Same.str_inj {s t : String} (hsame : Same (.str s) (.str t)) : s = t := by
  cases hsame
  rfl

theorem Same.int_inj {m n : Int} (hsame : Same (.int m) (.int n)) : m = n := by
  cases hsame
  rfl

theorem Same.bool_inj {b c : Bool} (hsame : Same (.bool b) (.bool c)) : b = c := by
  cases hsame
  rfl

theorem Same.member {members members' : List (String × Json)}
    (hsame : Same (.obj members) (.obj members')) (name : String) {value value' : Json}
    (hmem : (name, value) ∈ members) (hmem' : (name, value') ∈ members') : Same value value' := by
  cases hsame with
  | obj names each => exact each _ hmem _ hmem' rfl

theorem Same.forall₂ {α : Type} {write : α → Json} {xs ys : List α}
    (hsame : Same (.arr (xs.map write)) (.arr (ys.map write))) :
    List.Forall₂ (fun x y => Same (write x) (write y)) xs ys := by
  cases hsame with
  | arr length each =>
      have hlike : List.Forall₂ Same (xs.map write) (ys.map write) :=
        List.forall₂_iff_zip.2 ⟨length, fun hmem => each _ hmem⟩
      rwa [List.forall₂_map_left_iff, List.forall₂_map_right_iff] at hlike

/-- Arrays of written items determine the items if the writer determines each. -/
theorem Same.map_inj {α : Type} {write : α → Json}
    (hwrite : ∀ a b, Same (write a) (write b) → a = b) {xs ys : List α}
    (hsame : Same (.arr (xs.map write)) (.arr (ys.map write))) : xs = ys := by
  have hlike := hsame.forall₂.imp hwrite
  rwa [List.forall₂_eq_eq_eq] at hlike

theorem Same.ofOption_inj {α : Type} {write : α → Json}
    (hwrite : ∀ a b, Same (write a) (write b) → a = b) (hnull : ∀ a, write a ≠ .null)
    {a b : Option α} (hsame : Same (Json.ofOption write a) (Json.ofOption write b)) : a = b := by
  cases a with
  | none =>
      cases b with
      | none => rfl
      | some b =>
          simp only [Json.ofOption] at hsame
          generalize hjson : write b = json at hsame
          cases hsame
          exact absurd hjson (hnull b)
  | some a =>
      cases b with
      | none =>
          simp only [Json.ofOption] at hsame
          generalize hjson : write a = json at hsame
          cases hsame
          exact absurd hjson (hnull a)
      | some b => rw [hwrite a b hsame]

end Json

theorem Scalar.alike_of_same {s s' : Scalar} (hsame : Json.Same s.toJson s'.toJson) :
    Scalar.Alike s s' := by
  cases s <;> cases s' <;> cases hsame
  · exact .bool _
  · exact .int _
  · exact .float ‹_›
  · exact .str _

theorem Direction.name_inj {d d' : Direction} (heq : d.name = d'.name) : d = d' := by
  cases d <;> cases d' <;> first | rfl | exact absurd heq (by decide)

theorem Operator.name_inj {o o' : Operator} (heq : o.name = o'.name) : o = o' := by
  have hread := Operator.ofName?_name o
  rw [heq, Operator.ofName?_name] at hread
  exact (Option.some.inj hread).symm

theorem SortKey.eq_of_same {k k' : SortKey} (hsame : Json.Same k.toJson k'.toJson) : k = k' := by
  have hfield : k.field = k'.field := (hsame.member "field" (by simp) (by simp)).str_inj
  have hdirection : k.direction.name = k'.direction.name :=
    (hsame.member "direction" (by simp) (by simp)).str_inj
  cases k
  cases k'
  rw [SortKey.mk.injEq]
  exact ⟨hfield, Direction.name_inj hdirection⟩

theorem Pagination.eq_of_same {p p' : Pagination} (hsame : Json.Same p.toJson p'.toJson) :
    p = p' := by
  have hlimit : Json.Same (Json.ofOption (fun n => .int n.val) p.limit)
      (Json.ofOption (fun n => .int n.val) p'.limit) :=
    hsame.member "limit" (by simp) (by simp)
  have hoffset : Json.Same (Json.ofOption (fun (n : Nat) => .int n) p.offset)
      (Json.ofOption (fun (n : Nat) => .int n) p'.offset) :=
    hsame.member "offset" (by simp) (by simp)
  cases p
  cases p'
  rw [Pagination.mk.injEq]
  constructor
  · exact hlimit.ofOption_inj (fun n m hn => Subtype.ext (Int.ofNat.inj hn.int_inj)) (by simp)
  · exact hoffset.ofOption_inj (fun n m hn => Int.ofNat.inj hn.int_inj) (by simp)

theorem Filter.alike_of_same {f f' : Filter} (hsame : Json.Same f.toJson f'.toJson) :
    Filter.Alike f f' := by
  have hfield : f.field = f'.field :=
    (hsame.member "field" (by simp) (by simp)).str_inj
  have hnegate : f.negate = f'.negate :=
    (hsame.member "negate" (by simp) (by simp)).bool_inj
  have hoperator : f.operator = f'.operator :=
    Operator.name_inj (hsame.member "operator" (by simp) (by simp)).str_inj
  refine ⟨hfield, hnegate, hoperator, ?_⟩
  rcases f with ⟨field, negate, condition⟩
  rcases f' with ⟨field', negate', condition'⟩
  cases condition with
  | compare c value =>
      cases condition' with
      | compare c' value' =>
          have hvalue : Json.Same ((value.map Scalar.toJson).getD .null)
              ((value'.map Scalar.toJson).getD .null) :=
            hsame.member "value" (by simp [Condition.valueMembers])
              (by simp [Condition.valueMembers])
          cases value with
          | none =>
              cases value' with
              | none => exact .nil
              | some s' => cases s' <;> cases hvalue
          | some s =>
              cases value' with
              | none => cases s <;> cases hvalue
              | some s' => exact .cons (Scalar.alike_of_same hvalue) .nil
      | member | between | presence => cases hoperator
  | member m first rest =>
      cases condition' with
      | member m' first' rest' =>
          have hvalues : Json.Same (.arr ((first :: rest).map Scalar.toJson))
              (.arr ((first' :: rest').map Scalar.toJson)) :=
            hsame.member "value" (by simp [Condition.valueMembers])
              (by simp [Condition.valueMembers])
          exact hvalues.forall₂.imp fun _ _ => Scalar.alike_of_same
      | compare | between | presence => cases hoperator
  | between low high =>
      cases condition' with
      | between low' high' =>
          have hvalues : Json.Same (.arr ([low, high].map Scalar.toJson))
              (.arr ([low', high'].map Scalar.toJson)) :=
            hsame.member "value" (by simp [Condition.valueMembers])
              (by simp [Condition.valueMembers])
          exact hvalues.forall₂.imp fun _ _ => Scalar.alike_of_same
      | compare | member | presence => cases hoperator
  | presence p =>
      cases condition' with
      | presence p' => exact .nil
      | compare | member | between => cases hoperator

theorem Filter.toJson_proper (f : Filter) : f.toJson.Proper := by
  have hvalues : ∀ values : List Scalar, Json.Proper (.arr (values.map Scalar.toJson)) :=
    fun values => .arr_map fun s _ => s.toJson_proper
  have hmembers : (f.condition.valueMembers = [] ∨
      ∃ value, f.condition.valueMembers = [("value", value)] ∧ value.Proper) := by
    rcases f.condition with ⟨_, value⟩ | ⟨_, first, rest⟩ | ⟨low, high⟩ | _
    · refine .inr ⟨_, rfl, ?_⟩
      cases value with
      | none => exact .null
      | some s => exact s.toJson_proper
    · exact .inr ⟨_, rfl, hvalues (first :: rest)⟩
    · exact .inr ⟨_, rfl, hvalues [low, high]⟩
    · exact .inl rfl
  rw [Filter.toJson]
  rcases hmembers with hnone | ⟨value, hone, hproper⟩
  · rw [hnone]
    refine .obj (by simp) ?_
    simp [Json.Proper.str, Json.Proper.bool]
  · rw [hone]
    refine .obj (by simp) ?_
    simp [Json.Proper.str, Json.Proper.bool, hproper]

theorem Request.toJson_proper (r : Request) : r.toJson.Proper := by
  have hsorting : Json.Proper (.arr (r.sorting.map SortKey.toJson)) := by
    refine .arr_map fun k _ => ?_
    rw [SortKey.toJson]
    exact .obj (by simp) (by simp [Json.Proper.str])
  have hpagination : r.pagination.toJson.Proper := by
    refine .obj (by simp) ?_
    simp [Json.Proper.ofOption, Json.Proper.int]
  refine .obj (by simp) ?_
  simp only [List.mem_cons, List.not_mem_nil, or_false, forall_eq_or_imp, forall_eq]
  refine ⟨.ofOption .str _, .arr_map fun f _ => f.toJson_proper, .ofOption .str _, hsorting,
    hpagination, .ofOption (fun fields => .arr_map fun s _ => .str s) _, .bool _⟩

/-- Requests whose objects are the same are alike. -/
theorem Request.alike_of_same {r r' : Request} (hsame : Json.Same r.toJson r'.toJson) :
    Request.Alike r r' := by
  have hstr : ∀ s t : String, Json.Same (.str s) (.str t) → s = t := fun s t h => h.str_inj
  have hfields : ∀ xs ys : List String,
      Json.Same (.arr (xs.map .str)) (.arr (ys.map .str)) → xs = ys :=
    fun xs ys h => h.map_inj hstr
  have hfilters : Json.Same (.arr (r.filters.map Filter.toJson))
      (.arr (r'.filters.map Filter.toJson)) :=
    hsame.member "filters" (by simp) (by simp)
  refine ⟨?_, ?_, ?_, ?_, ?_, ?_, ?_⟩
  · exact Json.Same.ofOption_inj hstr (by simp) (hsame.member "scopeId" (by simp) (by simp))
  · exact hfilters.forall₂.imp fun _ _ => Filter.alike_of_same
  · exact Json.Same.ofOption_inj hstr (by simp) (hsame.member "textSearch" (by simp) (by simp))
  · exact Json.Same.map_inj (fun _ _ => SortKey.eq_of_same)
      (hsame.member "sorting" (by simp) (by simp))
  · exact Pagination.eq_of_same (hsame.member "pagination" (by simp) (by simp))
  · exact Json.Same.ofOption_inj hfields (by simp)
      (hsame.member "fieldSelector" (by simp) (by simp))
  · exact (hsame.member "includeMetadata" (by simp) (by simp)).bool_inj

theorem Scalar.Alike.same {s s' : Scalar} (halike : Scalar.Alike s s') :
    Json.Same s.toJson s'.toJson := by
  cases halike with
  | bool b => exact .bool b
  | int n => exact .int n
  | float text => exact .float text
  | str s => exact .str s

/-- Arrays of written items are the same if the items are. -/
theorem Json.Same.arr_map {α : Type} {write : α → Json} {xs ys : List α}
    (hlike : List.Forall₂ (fun x y => Json.Same (write x) (write y)) xs ys) :
    Json.Same (.arr (xs.map write)) (.arr (ys.map write)) := by
  have hmapped : List.Forall₂ Json.Same (xs.map write) (ys.map write) := by
    rwa [List.forall₂_map_left_iff, List.forall₂_map_right_iff]
  exact .arr hmapped.length_eq fun pair hpair => List.forall₂_zip hmapped hpair

/-- The values of conditions that agree in their operator are written alike. -/
theorem Condition.valueMembers_same {condition condition' : Condition}
    (hoperator : condition.operator = condition'.operator)
    (hvalues : List.Forall₂ Scalar.Alike condition.values condition'.values) :
    List.Forall₂ (fun m m' => m.1 = m'.1 ∧ Json.Same m.2 m'.2)
      condition.valueMembers condition'.valueMembers := by
  have hwritten := hvalues.imp fun _ _ => Scalar.Alike.same
  cases condition <;> cases condition' <;> cases hoperator
  case compare.compare value value' =>
      refine .cons ⟨rfl, ?_⟩ .nil
      cases value <;> cases value' <;> cases hwritten
      · exact .null
      · assumption
  case member.member => exact .cons ⟨rfl, .arr_map hwritten⟩ .nil
  case between.between => exact .cons ⟨rfl, .arr_map hwritten⟩ .nil
  case presence.presence => exact .nil

theorem Filter.Alike.same {f f' : Filter} (halike : Filter.Alike f f') :
    Json.Same f.toJson f'.toJson := by
  have hproper := f'.toJson_proper
  rw [Filter.toJson] at hproper
  cases hproper with
  | obj names each =>
      refine .obj_of_forall₂ names ?_
      rw [halike.field, halike.negate, halike.operator]
      refine .cons ⟨rfl, .str _⟩ (.cons ⟨rfl, .str _⟩ (.cons ⟨rfl, .bool _⟩ ?_))
      exact Condition.valueMembers_same halike.operator halike.values

theorem Request.Alike.same {r r' : Request} (halike : Request.Alike r r') :
    Json.Same r.toJson r'.toJson := by
  have hproper := r'.toJson_proper
  rw [Request.toJson] at hproper
  cases hproper with
  | obj names each =>
      refine .obj_of_forall₂ names ?_
      have hfilters : Json.Same (.arr (r.filters.map Filter.toJson))
          (.arr (r'.filters.map Filter.toJson)) :=
        .arr_map (halike.filters.imp fun _ _ => Filter.Alike.same)
      simp only [List.mem_cons, List.not_mem_nil, or_false, forall_eq_or_imp, forall_eq] at each
      obtain ⟨hscope, -, htext, hsorting, hpagination, hfields, hmetadata⟩ := each
      rw [halike.scopeId, halike.textSearch, halike.sorting, halike.pagination,
        halike.fieldSelector, halike.includeMetadata]
      simp only [List.forall₂_cons, List.Forall₂.nil, true_and, and_true]
      exact ⟨hscope.same_self, hfilters, htext.same_self, hsorting.same_self,
        hpagination.same_self, hfields.same_self, hmetadata.same_self⟩

/-- Requests with one canonical text are alike. -/
theorem Request.alike_of_canonicalText {r r' : Request}
    (heq : r.toJson.canonicalText = r'.toJson.canonicalText) : Request.Alike r r' :=
  Request.alike_of_same (Json.same_of_canonicalText r.toJson_proper r'.toJson_proper heq)

end IssueSearch
