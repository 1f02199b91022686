import IssueSearch.Proofs.Cache.Expiry
import IssueSearch.Proofs.Cache.History
import Mathlib.Tactic.ByContra
/-!
What each command does to the entry of one key. The keys of a cache are distinct, so that whatever
removes an entry leaves no other of its key. On an exact clock, a command changes the entry of a key
only as the history of the key says, except that an entry which has expired may be dropped.
-/
namespace IssueSearch.Cache

variable {τ α : Type}

/-! ### Looking a key up among entries -/

theorem find?_cons_self {e : Entry τ α} {key : String} (hkey : e.key = key)
    (rest : List (Entry τ α)) : (e :: rest).find? (·.key == key) = some e := by
  rw [List.find?_cons, beq_iff_eq.2 hkey]

theorem find?_cons_of_ne {e : Entry τ α} {key : String} (hkey : e.key ≠ key)
    (rest : List (Entry τ α)) :
    (e :: rest).find? (·.key == key) = rest.find? (·.key == key) := by
  rw [List.find?_cons, beq_eq_false_iff_ne.2 hkey]

theorem find?_filter_of_nodup {entries : List (Entry τ α)} (hnodup : (entries.map Entry.key).Nodup)
    (p : Entry τ α → Bool) (key : String) :
    (entries.filter p).find? (·.key == key) = (entries.find? (·.key == key)).filter p := by
  induction entries with
  | nil => rfl
  | cons e rest ih =>
      rw [List.map_cons, List.nodup_cons] at hnodup
      have hrest := ih hnodup.2
      by_cases hkey : e.key = key
      · have hnone : rest.find? (·.key == key) = none := by
          rw [List.find?_eq_none]
          intro other hother hsame
          refine hnodup.1 (List.mem_map.2 ⟨other, hother, ?_⟩)
          rw [hkey]
          exact beq_iff_eq.1 hsame
        rw [hnone, Option.filter_none] at hrest
        rw [find?_cons_self hkey, Option.filter_some]
        by_cases hp : p e = true
        · rw [List.filter_cons_of_pos hp, find?_cons_self hkey, if_pos hp]
        · rw [List.filter_cons_of_neg hp, hrest, if_neg hp]
      · rw [find?_cons_of_ne hkey, ← hrest]
        by_cases hp : p e = true
        · rw [List.filter_cons_of_pos hp, find?_cons_of_ne hkey]
        · rw [List.filter_cons_of_neg hp]

theorem find?_filter_key (entries : List (Entry τ α)) (p : String → Bool) (key : String) :
    (entries.filter fun e => p e.key).find? (·.key == key) =
      if p key = true then entries.find? (·.key == key) else none := by
  induction entries with
  | nil => simp
  | cons e rest ih =>
      rw [List.filter_cons]
      by_cases hkey : e.key = key
      · rw [find?_cons_self hkey, hkey]
        by_cases hp : p key = true
        · rw [if_pos hp, if_pos hp, find?_cons_self hkey]
        · rw [if_neg hp, ih, if_neg hp, if_neg hp]
      · rw [find?_cons_of_ne hkey, ← ih]
        by_cases hp : p e.key = true
        · rw [if_pos hp, find?_cons_of_ne hkey]
        · rw [if_neg hp]

theorem find?_without (entries : List (Entry τ α)) (other key : String) :
    (without other entries).find? (·.key == key) =
      if key = other then none else entries.find? (·.key == key) := by
  rw [without, find?_filter_key entries (· != other)]
  by_cases hkey : key = other
  · simp [hkey]
  · simp [hkey]

theorem find?_replace (entries : List (Entry τ α)) (new : Entry τ α) (key : String) :
    (replace new entries).find? (·.key == key) = (entries.find? (·.key == key)).map
      fun old => if key = new.key then new else old := by
  induction entries with
  | nil => rfl
  | cons e rest ih =>
      rw [replace] at ih
      rw [replace, List.map_cons]
      by_cases hnew : e.key = new.key
      · by_cases hkey : new.key = key
        · simp [hnew, hkey]
        · simpa [hnew, hkey, Ne.symm hkey] using ih
      · by_cases hkey : e.key = key
        · subst hkey
          simp [hnew]
        · simpa [hnew, hkey] using ih

theorem stored?_eq_none_iff {c : Cache τ α} {key : String} :
    c.stored? key = none ↔ key ∉ c.keys := by
  simp [stored?, keys]

theorem without_eq_self {c : Cache τ α} {key : String} (habsent : c.stored? key = none) :
    without key c.entries = c.entries := by
  refine List.filter_eq_self.2 fun e he => ?_
  rw [bne_iff_ne]
  rintro rfl
  exact stored?_eq_none_iff.1 habsent (List.mem_map_of_mem he)

theorem erase_entries (c : Cache τ α) (other : String) :
    (c.erase other).2.entries = without other c.entries := by
  unfold erase
  split
  · rfl
  · rename_i habsent
    rw [Option.not_isSome_iff_eq_none] at habsent
    exact (without_eq_self habsent).symm

theorem without_replace {new : Entry τ α} {key : String} (hkey : new.key = key)
    (entries : List (Entry τ α)) :
    without key (replace new entries) = without key entries := by
  induction entries with
  | nil => rfl
  | cons old rest ih =>
      rw [replace, List.map_cons, ← replace]
      by_cases hold : old.key = key
      · simpa [without, hold, hkey] using ih
      · have hne : old.key ≠ new.key := hkey ▸ hold
        simpa [without, hold, hne] using ih

/-! ### Placing an entry -/

/-- How an entry is put into its place. -/
inductive Places (c : Cache τ α) (new : Entry τ α) : Cache τ α → Prop
  | inPlace {placed : Cache τ α} (present : new.key ∈ c.keys)
      (entries : placed.entries = replace new c.entries)
      (evictions : placed.counters.evictions = c.counters.evictions) : Places c new placed
  | behind {placed : Cache τ α} (absent : new.key ∉ c.keys)
      (entries : placed.entries = c.entries ++ [new])
      (evictions : placed.counters.evictions = c.counters.evictions) : Places c new placed
  | instead {placed : Cache τ α} {oldest : Entry τ α} {rest : List (Entry τ α)}
      (absent : new.key ∉ c.keys) (full : c.entries = oldest :: rest)
      (entries : placed.entries = rest ++ [new])
      (evictions : placed.counters.evictions = c.counters.evictions + 1) : Places c new placed

theorem makeRoom_cases (c : Cache τ α) : c.makeRoom.1 = c ∨ ∃ oldest rest,
    c.entries = oldest :: rest ∧ c.makeRoom.1.entries = rest ∧
      c.makeRoom.1.counters.evictions = c.counters.evictions + 1 := by
  unfold makeRoom
  split
  · exact .inl rfl
  · rename_i oldest rest hentries
    split
    · exact .inr ⟨oldest, rest, hentries, rfl, rfl⟩
    · exact .inl rfl

theorem place_places (c : Cache τ α) (new : Entry τ α) : Places c new (c.place new).1 := by
  unfold place
  split
  · rename_i hpresent
    refine .inPlace ?_ rfl rfl
    by_contra habsent
    rw [stored?_eq_none_iff.2 habsent] at hpresent
    cases hpresent
  · rename_i habsent
    rw [Option.not_isSome_iff_eq_none, stored?_eq_none_iff] at habsent
    rcases makeRoom_cases c with hroom | ⟨oldest, rest, hfull, hrest, hevictions⟩
    · exact .behind habsent (by simp only [hroom]) (by simp only [hroom])
    · exact .instead habsent hfull (by simp only [hrest]) hevictions

theorem Places.stored?_self {c placed : Cache τ α} {new : Entry τ α}
    (hplaces : Places c new placed) :
    placed.stored? new.key = some new := by
  cases hplaces with
  | inPlace present entries evictions =>
      obtain ⟨old, hold⟩ :=
        Option.ne_none_iff_exists'.1 (mt stored?_eq_none_iff.1 (not_not.2 present))
      rw [stored?] at hold
      rw [stored?, entries, find?_replace, hold, Option.map_some, if_pos rfl]
  | behind absent entries evictions =>
      have hnone := stored?_eq_none_iff.2 absent
      rw [stored?] at hnone
      rw [stored?, entries, List.find?_append, hnone, Option.none_or, find?_cons_self rfl]
  | @instead oldest rest absent full entries evictions =>
      have hnone : rest.find? (·.key == new.key) = none := by
        have habsent := stored?_eq_none_iff.2 absent
        rw [stored?, full, List.find?_cons] at habsent
        split at habsent
        · cases habsent
        · exact habsent
      rw [stored?, entries, List.find?_append, hnone, Option.none_or, find?_cons_self rfl]

/-- Placing an entry leaves what is stored under another key, or it counts an eviction and that key
was the first. -/
theorem Places.stored?_of_ne {c placed : Cache τ α} {new : Entry τ α}
    (hplaces : Places c new placed) (hnodup : c.keys.Nodup) {key : String} (hkey : key ≠ new.key) :
    placed.stored? key = c.stored? key ∧
        ¬ (c.counters.evictions < placed.counters.evictions ∧ c.keys.head? = some key) ∨
      placed.stored? key = none ∧
        c.counters.evictions < placed.counters.evictions ∧ c.keys.head? = some key := by
  cases hplaces with
  | inPlace present entries evictions =>
      refine .inl ⟨?_, fun hevicts => absurd hevicts.1 (by omega)⟩
      rw [stored?, entries, find?_replace]
      simp [hkey, stored?]
  | behind absent entries evictions =>
      refine .inl ⟨?_, fun hevicts => absurd hevicts.1 (by omega)⟩
      rw [stored?, entries, List.find?_append, find?_cons_of_ne hkey.symm, List.find?_nil,
        Option.or_none, stored?]
  | @instead oldest rest absent full entries evictions =>
      have hrest : placed.stored? key = rest.find? (·.key == key) := by
        rw [stored?, entries, List.find?_append, find?_cons_of_ne hkey.symm, List.find?_nil,
          Option.or_none]
      rw [keys, full, List.map_cons, List.nodup_cons] at hnodup
      rw [hrest, keys, full, List.map_cons, List.head?_cons, evictions]
      by_cases hfirst : oldest.key = key
      · refine .inr ⟨?_, by omega, congrArg some hfirst⟩
        rw [List.find?_eq_none]
        intro e he hsame
        refine hnodup.1 (List.mem_map.2 ⟨e, he, ?_⟩)
        rw [hfirst]
        exact beq_iff_eq.1 hsame
      · refine .inl ⟨?_, fun hevicts => hfirst (Option.some.inj hevicts.2)⟩
        rw [stored?, full, find?_cons_of_ne hfirst]

/-! ### The keys of a cache are distinct -/

theorem keys_replace (entries : List (Entry τ α)) (new : Entry τ α) :
    (replace new entries).map Entry.key = entries.map Entry.key := by
  rw [replace, List.map_map]
  refine List.map_congr_left fun e _ => ?_
  by_cases hkey : e.key = new.key
  · simp [hkey]
  · simp [hkey]

theorem nodup_of_sublist {c c' : Cache τ α} (hnodup : c.keys.Nodup)
    (hsublist : c'.entries.Sublist c.entries) : c'.keys.Nodup :=
  (hsublist.map Entry.key).nodup hnodup

theorem place_nodup {c : Cache τ α} (hnodup : c.keys.Nodup) (new : Entry τ α) :
    (c.place new).1.keys.Nodup := by
  unfold place
  split
  · rw [keys, keys_replace]
    exact hnodup
  · rename_i habsent
    rw [Option.not_isSome_iff_eq_none, stored?_eq_none_iff] at habsent
    have hroom := (makeRoom_sublist c).map Entry.key
    simp only [keys, List.map_append, List.map_cons, List.map_nil]
    rw [List.nodup_append]
    refine ⟨hroom.nodup hnodup, List.nodup_singleton _, ?_⟩
    intro key hkey other hother heq
    rw [List.mem_singleton.1 hother] at heq
    subst heq
    exact habsent (hroom.subset hkey)

theorem countLookup_keys (looked : Option (Entry τ α) × Cache τ α) :
    (countLookup looked).2.keys = looked.2.keys := by
  rcases looked with ⟨_ | e, c⟩
  · rfl
  · exact keys_replace c.entries { e with hits := e.hits + 1 }

variable [Timeline τ]

theorem Looks.sublist {c left : Cache τ α} {now : τ} {key : String} {found : Option (Entry τ α)}
    (hlooks : Looks c now key found left) : left.entries.Sublist c.entries := by
  cases hlooks with
  | absent missing => exact List.Sublist.refl _
  | expired stored expired => exact List.filter_sublist
  | live stored unexpired => exact List.Sublist.refl _

theorem insert_nodup {c : Cache τ α} (hnodup : c.keys.Nodup) (now : τ) (key : String) (payload : α)
    (ttl : Json) : (c.insert now key payload ttl).2.1.keys.Nodup := by
  unfold insert
  split
  · exact hnodup
  · exact nodup_of_sublist (place_nodup hnodup _) (c.store_sublist now key payload _)

theorem step_nodup {c : Cache τ α} (hnodup : c.keys.Nodup) (now : τ) (command : Command α) :
    (c.step now command).2.1.keys.Nodup := by
  cases command with
  | get key =>
      simp only [step]
      split
      · rename_i found left hget
        obtain ⟨found', left', hlooks, hcount⟩ := get?_eq_ok hget
        have hkeys : left.keys = left'.keys := by
          rw [← countLookup_keys (found', left'), hcount]
        rw [hkeys]
        exact nodup_of_sublist hnodup hlooks.sublist
      · exact hnodup
  | set key payload ttl =>
      have hinsert := insert_nodup hnodup now key payload ttl
      simp only [step]
      generalize c.insert now key payload ttl = inserted at hinsert ⊢
      rcases inserted with ⟨_ | e, left, log⟩
      · exact hinsert
      · exact hinsert
  | contains key =>
      simp only [step, contains]
      rcases hlive : c.live now key with cause | ⟨found, left⟩
      · exact hnodup
      · exact nodup_of_sublist hnodup (live_looks hlive).sublist
  | delete key =>
      simp only [step, erase]
      split
      · exact nodup_of_sublist hnodup List.filter_sublist
      · exact hnodup
  | deletePattern pattern => exact nodup_of_sublist hnodup List.filter_sublist
  | invalidateDomain domain => exact nodup_of_sublist hnodup List.filter_sublist
  | clear => exact List.nodup_nil
  | sweep =>
      simp only [step]
      split
      · rename_i hsweep
        exact nodup_of_sublist hnodup (unexpired_sublist (sweep_eq_ok hsweep))
      · exact hnodup

end IssueSearch.Cache
