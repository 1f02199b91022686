import IssueSearch.Proofs.Json.Canonical
/-!
Members in another order, at any depth, leave the canonical text of a proper value as it is: sorting
leads to one list of names, and each name has one value.
-/
namespace IssueSearch.Json

theorem names_byName (members : List (String × Json)) :
    (byName members).map Prod.fst =
      (members.map Prod.fst).mergeSort fun name name' => decide (name ≤ name') :=
  List.map_mergeSort fun _ _ _ _ => rfl

theorem pairwise_names_byName (members : List (String × Json)) :
    ((byName members).map Prod.fst).Pairwise (· ≤ ·) := by
  rw [names_byName]
  refine (List.pairwise_mergeSort ?_ ?_ _).imp of_decide_eq_true
  · intro a b c hab hbc
    exact decide_eq_true (String.le_trans (of_decide_eq_true hab) (of_decide_eq_true hbc))
  · intro a b
    rw [Bool.or_eq_true, decide_eq_true_eq, decide_eq_true_eq]
    exact String.le_total a b

/-- Objects with the same names, each held once, have one list of names in order. -/
theorem names_byName_eq {members members' : List (String × Json)}
    (hnodup : (members.map Prod.fst).Nodup) (hnodup' : (members'.map Prod.fst).Nodup)
    (hnames : ∀ name, name ∈ members.map Prod.fst ↔ name ∈ members'.map Prod.fst) :
    (byName members).map Prod.fst = (byName members').map Prod.fst := by
  have hperm : ((byName members).map Prod.fst).Perm ((byName members').map Prod.fst) :=
    calc ((byName members).map Prod.fst).Perm (members.map Prod.fst) :=
          (List.mergeSort_perm members _).map Prod.fst
      _ |>.Perm (members'.map Prod.fst) := (List.perm_ext_iff_of_nodup hnodup hnodup').2 hnames
      _ |>.Perm ((byName members').map Prod.fst) :=
          ((List.mergeSort_perm members' _).map Prod.fst).symm
  exact hperm.eq_of_pairwise (fun _ _ _ _ => String.le_antisymm)
    (pairwise_names_byName members) (pairwise_names_byName members')

/-- Lists of members with the same names in the same places are written alike if each pair of
members under one name is. -/
theorem map_member_eq {members members' : List (String × Json)}
    (hnames : members.map Prod.fst = members'.map Prod.fst)
    (heach : ∀ member ∈ members, ∀ member' ∈ members', member.1 = member'.1 →
      member.2.chars canonical = member'.2.chars canonical) :
    (members.map fun m => canonical.member m.1 (m.2.chars canonical)) =
      members'.map fun m => canonical.member m.1 (m.2.chars canonical) := by
  have hlength : members.length = members'.length := by
    rw [← List.length_map Prod.fst, hnames, List.length_map]
  refine List.ext_getElem (by rw [List.length_map, List.length_map, hlength]) fun i hi hi' => ?_
  rw [List.length_map] at hi hi'
  have hname : members[i].1 = members'[i].1 := by
    have hget : (members.map Prod.fst)[i]? = (members'.map Prod.fst)[i]? := by rw [hnames]
    simpa [List.getElem?_eq_getElem, hi, hi'] using hget
  have hvalue := heach _ (List.getElem_mem hi) _ (List.getElem_mem hi') hname
  rw [List.getElem_map, List.getElem_map, hname, hvalue]

/-- Proper values that are the same have one text. -/
theorem chars_eq_of_same {p q : Json} (hp : Proper p) (hq : Proper q) (hsame : Same p q) :
    p.chars canonical = q.chars canonical := by
  induction hp generalizing q with
  | null | bool | int | str =>
      cases hsame
      rfl
  | float x =>
      cases hsame with
      | float text =>
          rw [chars, chars]
          exact Decimal.spelledOut_eq_of_text text
  | @arr items each ih =>
      cases hsame with
      | @arr _ items' hlength heach =>
          cases hq with
          | arr each' =>
              have hitems : items.map (chars canonical) = items'.map (chars canonical) := by
                refine List.ext_getElem (by simp [hlength]) fun i hi hi' => ?_
                rw [List.length_map] at hi hi'
                have hpair : (items[i], items'[i]) ∈ items.zip items' := by
                  have hzip : i < (items.zip items').length := by
                    rw [List.length_zip]
                    exact Nat.lt_min.2 ⟨hi, hi'⟩
                  rw [← List.getElem_zip (h := hzip)]
                  exact List.getElem_mem _
                rw [List.getElem_map, List.getElem_map]
                exact ih _ (List.getElem_mem hi) (each' _ (List.getElem_mem hi')) (heach _ hpair)
              rw [chars_arr, chars_arr, hitems]
  | @obj members names each ih =>
      cases hsame with
      | @obj _ members' hnames heach =>
          cases hq with
          | obj names' each' =>
              have hmembers := map_member_eq (names_byName_eq names names' hnames)
                fun member hmem member' hmem' hname =>
                  ih member (mem_byName.1 hmem) (each' member' (mem_byName.1 hmem'))
                    (heach member (mem_byName.1 hmem) member' (mem_byName.1 hmem') hname)
              rw [chars_obj, chars_obj, hmembers]

/-- The canonical text is the same for all reorderings of a value, and for nothing else. -/
theorem canonicalText_eq_iff {p q : Json} (hp : Proper p) (hq : Proper q) :
    p.canonicalText = q.canonicalText ↔ Same p q := by
  constructor
  · exact same_of_canonicalText hp hq
  · intro hsame
    rw [canonicalText, canonicalText, chars_eq_of_same hp hq hsame]

end IssueSearch.Json
