import IssueSearch.Proofs.Json.Quoting
import IssueSearch.Proofs.Json.Tokens
import Mathlib.Data.List.Forall2
import Mathlib.Data.List.Nodup
/-!
The canonical text of a value. It tells where it ends, and two proper values have one text only if
they are the same up to the order of members, with integers, doubles and flags kept apart and
doubles compared by their text.
-/
namespace IssueSearch.Json

/-- Values without foreign parts in which no object holds a name twice. -/
inductive Proper : Json → Prop
  | null : Proper null
  | bool (b : Bool) : Proper (bool b)
  | int (n : Int) : Proper (int n)
  | float (x : Float) : Proper (float x)
  | str (s : String) : Proper (str s)
  | arr {items : List Json} (each : ∀ item ∈ items, Proper item) : Proper (arr items)
  | obj {members : List (String × Json)} (names : (members.map Prod.fst).Nodup)
      (each : ∀ member ∈ members, Proper member.2) : Proper (obj members)

/-- Equality up to the order of members. Objects are the same if they have the same names and the
same value under each. -/
inductive Same : Json → Json → Prop
  | null : Same null null
  | bool (b : Bool) : Same (bool b) (bool b)
  | int (n : Int) : Same (int n) (int n)
  | float {x y : Float} (text : Decimal.text x = Decimal.text y) : Same (float x) (float y)
  | str (s : String) : Same (str s) (str s)
  | arr {items items' : List Json} (length : items.length = items'.length)
      (each : ∀ pair ∈ items.zip items', Same pair.1 pair.2) : Same (arr items) (arr items')
  | obj {members members' : List (String × Json)}
      (names : ∀ name, name ∈ members.map Prod.fst ↔ name ∈ members'.map Prod.fst)
      (each : ∀ member ∈ members, ∀ member' ∈ members', member.1 = member'.1 →
        Same member.2 member'.2) : Same (obj members) (obj members')

/-- The first character of a value that is no number and no word. -/
def opening? : Json → Option Char
  | str _ | foreign _ => some '\x22'
  | arr _ => some '['
  | obj _ => some '\x7b'
  | _ => none

theorem chars_of_opening {value : Json} {c : Char} (hopens : value.opening? = some c) :
    ∃ rest, value.chars canonical = c :: rest := by
  cases value <;> simp only [opening?, Option.some.injEq, reduceCtorEq] at hopens <;> subst hopens
  · exact ⟨_, rfl⟩
  · exact ⟨_, by rw [chars, List.cons_append]⟩
  · exact ⟨_, by rw [chars, List.cons_append]⟩
  · exact ⟨_, rfl⟩

/-- Whether a value is written as a number. -/
def isNumber : Json → Bool
  | int _ | float _ => true
  | _ => false

theorem isNumeric_of_mem_number {value : Json} (hnumber : value.isNumber = true) {c : Char}
    (hmem : c ∈ value.chars canonical) : Decimal.isNumeric c = true := by
  cases value with
  | int n =>
      have hintegral := isIntegral_of_mem_int hmem
      rw [Decimal.isIntegral, Bool.or_eq_true] at hintegral
      rcases hintegral with hdigit | hdash
      · rw [Decimal.isNumeric, Decimal.isDecimal_of_isDigit hdigit, Bool.true_or]
      · rw [decide_eq_true_eq] at hdash
        subst hdash
        rfl
  | float x => exact Decimal.isNumeric_of_mem_chars hmem
  | null | bool | str | arr | obj | foreign => cases hnumber

theorem exists_mem_word_not_numeric {value : Json} (hword : value.isNumber = false)
    (htoken : value.opening? = none) :
    ∃ c ∈ value.chars canonical, Decimal.isNumeric c = false := by
  cases value with
  | null => exact ⟨'u', by decide, rfl⟩
  | bool b =>
      cases b with
      | false => exact ⟨'l', by decide, rfl⟩
      | true => exact ⟨'u', by decide, rfl⟩
  | int | float => cases hword
  | str | arr | obj | foreign => cases htoken

theorem isTokenChar_of_mem_token {value : Json} (htoken : value.opening? = none) {c : Char}
    (hmem : c ∈ value.chars canonical) : isTokenChar c = true := by
  cases value with
  | null => exact List.all_eq_true.1 (by decide) c hmem
  | bool b =>
      cases b with
      | false => exact List.all_eq_true.1 (by decide) c hmem
      | true => exact List.all_eq_true.1 (by decide) c hmem
  | int | float => exact isTokenChar_of_isNumeric (isNumeric_of_mem_number rfl hmem)
  | str | arr | obj | foreign => cases htoken

theorem chars_ne_nil (value : Json) : value.chars canonical ≠ [] := by
  cases hopens : value.opening? with
  | some c =>
      obtain ⟨rest, heq⟩ := chars_of_opening hopens
      rw [heq]
      exact List.cons_ne_nil _ _
  | none =>
      cases value with
      | null => decide
      | bool b => cases b <;> decide
      | int n =>
          simp only [chars, toList_toString_int]
          split
          · exact Nat.toDigits_ne_nil
          · exact List.cons_ne_nil _ _
      | float x =>
          obtain ⟨c, hmem, -⟩ := Decimal.exists_mem_chars_not_integral x
          exact List.ne_nil_of_mem hmem
      | str | arr | obj | foreign => cases hopens

theorem int_chars_ne_float (n : Int) (x : Float) :
    (Json.int n).chars canonical ≠ (Json.float x).chars canonical := by
  intro heq
  obtain ⟨c, hmem, hno⟩ := Decimal.exists_mem_chars_not_integral x
  have hintegral := isIntegral_of_mem_int (n := n) (by rw [chars, chars] at heq; exact heq ▸ hmem)
  rw [hintegral] at hno
  cases hno

theorem same_of_number {p q : Json} (hp : p.isNumber = true) (hq : q.isNumber = true)
    (heq : p.chars canonical = q.chars canonical) : Same p q := by
  cases p with
  | int n =>
      cases q with
      | int n' =>
          obtain rfl : n = n' := toString_int_inj heq
          exact .int n
      | float x => exact absurd heq (int_chars_ne_float n x)
      | null | bool | str | arr | obj | foreign => cases hq
  | float x =>
      cases q with
      | int n => exact absurd heq.symm (int_chars_ne_float n x)
      | float y => exact .float (Decimal.text_eq_of_spelledOut heq)
      | null | bool | str | arr | obj | foreign => cases hq
  | null | bool | str | arr | obj | foreign => cases hp

theorem same_of_word {p q : Json} (hp : p.opening? = none) (hq : q.opening? = none)
    (hword : p.isNumber = false) (hword' : q.isNumber = false)
    (heq : p.chars canonical = q.chars canonical) : Same p q := by
  cases p with
  | null =>
      cases q with
      | null => exact .null
      | bool b => cases b <;> exact absurd heq (by decide)
      | int | float => cases hword'
      | str | arr | obj | foreign => cases hq
  | bool b =>
      cases q with
      | null => cases b <;> exact absurd heq (by decide)
      | bool b' =>
          cases b <;> cases b'
          · exact .bool _
          · exact absurd heq (by decide)
          · exact absurd heq (by decide)
          · exact .bool _
      | int | float => cases hword'
      | str | arr | obj | foreign => cases hq
  | int | float => cases hword
  | str | arr | obj | foreign => cases hp

/-- Numbers and words with one text are the same. -/
theorem same_of_token {p q : Json} (hp : p.opening? = none) (hq : q.opening? = none)
    (heq : p.chars canonical = q.chars canonical) : Same p q := by
  cases hnumber : p.isNumber <;> cases hnumber' : q.isNumber
  · exact same_of_word hp hq hnumber hnumber' heq
  · obtain ⟨c, hmem, hno⟩ := exists_mem_word_not_numeric hnumber hp
    rw [isNumeric_of_mem_number hnumber' (heq ▸ hmem)] at hno
    cases hno
  · obtain ⟨c, hmem, hno⟩ := exists_mem_word_not_numeric hnumber' hq
    rw [isNumeric_of_mem_number hnumber (heq ▸ hmem)] at hno
    cases hno
  · exact same_of_number hnumber hnumber' heq

/-- What can stand before a value: no comma and no closing bracket begins one. -/
theorem chars_append_ne_cons (value : Json) {stop : Char} (hstop : stop ∈ [',', ']', '\x7d'])
    (rest rest' : List Char) : value.chars canonical ++ rest ≠ stop :: rest' := by
  intro heq
  cases hopens : value.opening? with
  | some c =>
      obtain ⟨behind, hchars⟩ := chars_of_opening hopens
      rw [hchars, List.cons_append] at heq
      obtain ⟨rfl, -⟩ := List.cons.inj heq
      cases value <;> simp only [opening?, Option.some.injEq, reduceCtorEq] at hopens <;>
        subst hopens <;> exact absurd hstop (by decide)
  | none =>
      obtain ⟨c, cs, hchars⟩ := List.exists_cons_of_ne_nil (chars_ne_nil value)
      have htoken : isTokenChar c = true :=
        isTokenChar_of_mem_token hopens (by rw [hchars]; exact List.mem_cons_self)
      rw [hchars, List.cons_append] at heq
      obtain ⟨rfl, -⟩ := List.cons.inj heq
      simp only [List.mem_cons, List.not_mem_nil, or_false] at hstop
      rcases hstop with rfl | rfl | rfl <;> exact absurd htoken (by decide)

section Separated

variable {α : Type} {write : α → List Char} {like : α → α → Prop} {close : Char}

theorem intercalate_cons_eq_flatMap (x : List Char) (xs : List (List Char)) :
    [','].intercalate (x :: xs) = x ++ xs.flatMap (',' :: ·) := by
  induction xs generalizing x with
  | nil => simp
  | cons y ys ih => simp [List.intercalate_cons_cons, ih]

/-- Items behind a comma each are told apart if every item tells where it ends. -/
theorem flatMap_comma_append_inj (hclose : close ≠ ',') (hends : isTokenChar close = false)
    {xs ys : List α} {rest rest' : List Char}
    (hread : ∀ x ∈ xs, ∀ y ∈ ys, ∀ rest rest', Ends rest → Ends rest' →
      write x ++ rest = write y ++ rest' → like x y ∧ rest = rest')
    (heq : xs.flatMap (fun x => ',' :: write x) ++ close :: rest =
      ys.flatMap (fun y => ',' :: write y) ++ close :: rest') :
    List.Forall₂ like xs ys ∧ rest = rest' := by
  have hbehind (zs : List α) (rest : List Char) :
      Ends (zs.flatMap (fun z => ',' :: write z) ++ close :: rest) := by
    intro c hc
    cases zs with
    | nil =>
        obtain rfl : close = c := by simpa using hc
        exact hends
    | cons z zs =>
        obtain rfl : ',' = c := by simpa using hc
        rfl
  induction xs generalizing ys with
  | nil =>
      cases ys with
      | nil => exact ⟨.nil, List.tail_eq_of_cons_eq heq⟩
      | cons y ys => exact absurd (List.cons.inj heq).1 hclose
  | cons x xs ih =>
      cases ys with
      | nil => exact absurd (List.cons.inj heq).1.symm hclose
      | cons y ys =>
          simp only [List.flatMap_cons, List.cons_append, List.append_assoc] at heq
          obtain ⟨hlike, htail⟩ := hread x List.mem_cons_self y List.mem_cons_self _ _
            (hbehind xs rest) (hbehind ys rest') (List.tail_eq_of_cons_eq heq)
          obtain ⟨hlikes, hrest⟩ := ih (fun x hx y hy =>
            hread x (List.mem_cons_of_mem _ hx) y (List.mem_cons_of_mem _ hy)) htail
          exact ⟨.cons hlike hlikes, hrest⟩

/-- A closed list of items with commas between is read back item by item. -/
theorem separated_append_inj (hclose : close ≠ ',') (hends : isTokenChar close = false)
    {xs ys : List α} {rest rest' : List Char}
    (hread : ∀ x ∈ xs, ∀ y ∈ ys, ∀ rest rest', Ends rest → Ends rest' →
      write x ++ rest = write y ++ rest' → like x y ∧ rest = rest')
    (hbegin : ∀ x rest rest', write x ++ rest ≠ close :: rest')
    (heq : [','].intercalate (xs.map write) ++ close :: rest =
      [','].intercalate (ys.map write) ++ close :: rest') :
    List.Forall₂ like xs ys ∧ rest = rest' := by
  have hcomma (x : α) (xs : List α) (rest : List Char) :
      ',' :: ([','].intercalate ((x :: xs).map write) ++ close :: rest) =
        (x :: xs).flatMap (fun x => ',' :: write x) ++ close :: rest := by
    rw [List.map_cons, intercalate_cons_eq_flatMap, List.flatMap_map, List.flatMap_cons,
      List.cons_append, List.cons_append]
  cases xs with
  | nil =>
      cases ys with
      | nil => exact ⟨.nil, List.tail_eq_of_cons_eq heq⟩
      | cons y ys =>
          rw [List.map_cons, intercalate_cons_eq_flatMap, List.append_assoc] at heq
          exact absurd heq.symm (hbegin y _ _)
  | cons x xs =>
      cases ys with
      | nil =>
          rw [List.map_cons, intercalate_cons_eq_flatMap, List.append_assoc] at heq
          exact absurd heq (hbegin x _ _)
      | cons y ys =>
          refine flatMap_comma_append_inj hclose hends hread ?_
          rw [← hcomma, ← hcomma, heq]

end Separated

/-- Members in order of their names. -/
def byName (members : List (String × Json)) : List (String × Json) :=
  members.mergeSort fun a b => decide (a.1 ≤ b.1)

theorem chars_obj (members : List (String × Json)) :
    (obj members).chars canonical = '\x7b' :: [','].intercalate
      ((byName members).map fun m => canonical.member m.1 (m.2.chars canonical)) ++ ['\x7d'] := by
  have hmap : ∀ members, memberChars canonical members =
      members.map fun m => (m.1, m.2.chars canonical) := by
    intro members
    induction members with
    | nil => rw [memberChars, List.map_nil]
    | cons member rest ih => rw [memberChars, ih, List.map_cons]
  have hsort : canonical.arrange (memberChars canonical members) =
      (byName members).map fun m => (m.1, m.2.chars canonical) := by
    rw [hmap]
    symm
    apply List.map_mergeSort
    intro _ _ _ _
    rfl
  rw [chars, hsort, List.map_map]
  rfl

theorem chars_arr (items : List Json) :
    (arr items).chars canonical =
      '[' :: [','].intercalate (items.map (chars canonical)) ++ [']'] := by
  have hmap : itemChars canonical items = items.map (chars canonical) := by
    induction items with
    | nil => rw [itemChars, List.map_nil]
    | cons item rest ih => rw [itemChars, ih, List.map_cons]
  rw [chars, hmap]
  rfl

theorem mem_byName {member : String × Json} {members : List (String × Json)} :
    member ∈ byName members ↔ member ∈ members :=
  List.mem_mergeSort

/-- Objects are the same if their members are, name by name. -/
theorem Same.obj_of_forall₂ {members members' : List (String × Json)}
    (hnames : (members'.map Prod.fst).Nodup)
    (hlike : List.Forall₂ (fun m m' => m.1 = m'.1 ∧ Same m.2 m'.2) members members') :
    Same (.obj members) (.obj members') := by
  have hsame : members.map Prod.fst = members'.map Prod.fst := by
    clear hnames
    induction hlike with
    | nil => rfl
    | cons hpair _ ih => rw [List.map_cons, List.map_cons, hpair.1, ih]
  refine .obj (fun name => by rw [hsame]) fun m hm m' hm' hname => ?_
  obtain ⟨i, hi, rfl⟩ := List.getElem_of_mem hm
  have hi' : i < members'.length := hlike.length_eq ▸ hi
  obtain ⟨hother, hvalue⟩ := hlike.get hi hi'
  have heq : members'[i] = m' :=
    List.inj_on_of_nodup_map hnames (List.getElem_mem hi') hm' (hother.symm.trans hname)
  rw [← heq]
  exact hvalue

/-- Objects are the same if their members are, name by name, once both are in order. -/
theorem Same.of_byName {members members' : List (String × Json)}
    (hnames : (members'.map Prod.fst).Nodup)
    (hlike : List.Forall₂ (fun m m' => m.1 = m'.1 ∧ Same m.2 m'.2)
      (byName members) (byName members')) : Same (.obj members) (.obj members') := by
  have hordered : ((byName members').map Prod.fst).Nodup :=
    ((List.mergeSort_perm members' _).map Prod.fst).nodup_iff.2 hnames
  cases Same.obj_of_forall₂ hordered hlike with
  | obj names each =>
      simp only [List.mem_map, mem_byName] at names each
      refine .obj (fun name => ?_) each
      simpa only [List.mem_map] using names name

theorem Proper.same_self {value : Json} (hproper : value.Proper) : Same value value := by
  induction hproper with
  | null => exact .null
  | bool b => exact .bool b
  | int n => exact .int n
  | float x => exact .float rfl
  | str s => exact .str s
  | arr each ih =>
      refine .arr rfl fun pair hpair => ?_
      exact List.forall₂_zip (List.forall₂_same.2 ih) hpair
  | obj names each ih =>
      refine .obj_of_forall₂ names (List.forall₂_same.2 fun m hm => ?_)
      exact ⟨rfl, ih m hm⟩

theorem opening?_eq_of_chars {p q : Json} {rest rest' : List Char}
    (heq : p.chars canonical ++ rest = q.chars canonical ++ rest') : p.opening? = q.opening? := by
  have hword : ∀ {p q : Json} {rest rest' : List Char} {c : Char}, p.opening? = some c →
      q.opening? = none → p.chars canonical ++ rest ≠ q.chars canonical ++ rest' := by
    intro p q rest rest' c hp hq heq
    obtain ⟨behind, hchars⟩ := chars_of_opening hp
    obtain ⟨d, ds, hchars'⟩ := List.exists_cons_of_ne_nil (chars_ne_nil q)
    rw [hchars, hchars', List.cons_append, List.cons_append] at heq
    obtain ⟨rfl, -⟩ := List.cons.inj heq
    have htoken : isTokenChar c = true :=
      isTokenChar_of_mem_token hq (by rw [hchars']; exact List.mem_cons_self)
    cases p <;> simp only [opening?, Option.some.injEq, reduceCtorEq] at hp <;>
      subst hp <;> exact absurd htoken (by decide)
  cases hp : p.opening? with
  | none =>
      cases hq : q.opening? with
      | none => rfl
      | some d => exact absurd heq.symm (hword hq hp)
  | some c =>
      cases hq : q.opening? with
      | none => exact absurd heq (hword hp hq)
      | some d =>
          obtain ⟨behind, hchars⟩ := chars_of_opening hp
          obtain ⟨behind', hchars'⟩ := chars_of_opening hq
          rw [hchars, hchars'] at heq
          exact congrArg some (List.cons.inj heq).1

/-- The canonical text of a proper value tells where it ends, and which value it is. -/
theorem chars_append_inj {p q : Json} (hp : Proper p) (hq : Proper q) {rest rest' : List Char}
    (hrest : Ends rest) (hrest' : Ends rest')
    (heq : p.chars canonical ++ rest = q.chars canonical ++ rest') : Same p q ∧ rest = rest' := by
  induction hp generalizing q rest rest' with
  | null | bool | int | float =>
      have hopening := opening?_eq_of_chars heq
      obtain ⟨hchars, hends⟩ := token_append_inj
        (fun c hc => isTokenChar_of_mem_token rfl hc)
        (fun c hc => isTokenChar_of_mem_token hopening.symm hc) hrest hrest' heq
      exact ⟨same_of_token rfl hopening.symm hchars, hends⟩
  | str s =>
      have hopening := opening?_eq_of_chars heq
      cases hq with
      | str t =>
          obtain ⟨rfl, hends⟩ := stringChars_append_inj heq
          exact ⟨.str s, hends⟩
      | null | bool | int | float | arr | obj => cases hopening
  | arr each ih =>
      have hopening := opening?_eq_of_chars heq
      cases hq with
      | arr each' =>
          simp only [chars_arr, List.cons_append, List.append_assoc, List.nil_append] at heq
          obtain ⟨hlike, hends⟩ := separated_append_inj (by decide) (by decide)
            (fun x hx y hy _ _ hrest hrest' hitem => ih x hx (each' y hy) hrest hrest' hitem)
            (fun x => chars_append_ne_cons x (by decide)) (List.tail_eq_of_cons_eq heq)
          exact ⟨.arr hlike.length_eq fun pair hpair => List.forall₂_zip hlike hpair, hends⟩
      | null | bool | int | float | str | obj => cases hopening
  | obj names each ih =>
      have hopening := opening?_eq_of_chars heq
      cases hq with
      | obj names' each' =>
          simp only [chars_obj, List.cons_append, List.append_assoc, List.nil_append] at heq
          obtain ⟨hlike, hends⟩ : List.Forall₂ (fun m m' => m.1 = m'.1 ∧ Same m.2 m'.2) _ _ ∧ _ :=
            separated_append_inj (by decide) (by decide)
            (fun m hm m' hm' rest rest' hrest hrest' hitem => by
              simp only [Spacing.member, List.append_assoc] at hitem
              obtain ⟨hname, hvalue⟩ := stringChars_append_inj hitem
              obtain ⟨hsame, hends⟩ := ih m (mem_byName.1 hm) (each' m' (mem_byName.1 hm'))
                hrest hrest' (List.append_cancel_left hvalue)
              exact ⟨⟨hname, hsame⟩, hends⟩)
            (fun m rest rest' hclose => by
              exact absurd (List.cons.inj hclose).1 (by decide))
            (List.tail_eq_of_cons_eq heq)
          exact ⟨.of_byName names' hlike, hends⟩
      | null | bool | int | float | str | arr => cases hopening

/-- Proper values with one canonical text are the same. -/
theorem same_of_canonicalText {p q : Json} (hp : Proper p) (hq : Proper q)
    (heq : p.canonicalText = q.canonicalText) : Same p q := by
  have hends : Ends [] := by
    intro c hc
    cases hc
  have hchars : p.chars canonical ++ [] = q.chars canonical ++ [] := by
    rw [canonicalText, canonicalText, String.ofList_inj] at heq
    rw [heq]
  exact (chars_append_inj hp hq hends hends hchars).1

end IssueSearch.Json
