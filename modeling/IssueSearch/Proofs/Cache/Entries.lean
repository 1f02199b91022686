import IssueSearch.Cache.Basic
import Mathlib.Data.List.Nodup
/-!
Where the entries of a cache come from. Only a store brings in an entry; every other operation
leaves some of the entries that were there, with nothing but their hits counted on.
-/
namespace IssueSearch.Cache

variable {τ α : Type}

/-- Every entry of `c'` stands in `c`, counted hits aside. -/
def Keeps (c c' : Cache τ α) : Prop :=
  ∀ e ∈ c'.entries, ∃ old ∈ c.entries, e = { old with hits := e.hits }

theorem Keeps.of_subset {c c' : Cache τ α} (hsubset : c'.entries ⊆ c.entries) : Keeps c c' :=
  fun e he => ⟨e, hsubset he, rfl⟩

theorem Keeps.trans {c c' c'' : Cache τ α} (hfirst : Keeps c c') (hsecond : Keeps c' c'') :
    Keeps c c'' := by
  intro e he
  obtain ⟨e', he', heq'⟩ := hsecond e he
  obtain ⟨old, hold, heq⟩ := hfirst e' he'
  refine ⟨old, hold, ?_⟩
  rw [heq', heq]

theorem mem_without {key : String} {entries : List (Entry τ α)} {e : Entry τ α} :
    e ∈ without key entries ↔ e ∈ entries ∧ e.key ≠ key := by
  rw [without, List.mem_filter, bne_iff_ne]

theorem mem_replace {new : Entry τ α} {entries : List (Entry τ α)} {e : Entry τ α}
    (hmem : e ∈ replace new entries) : e = new ∨ e ∈ entries ∧ e.key ≠ new.key := by
  obtain ⟨old, hold, heq⟩ := List.mem_map.1 hmem
  by_cases hkey : old.key = new.key
  · rw [if_pos (beq_iff_eq.2 hkey)] at heq
    exact .inl heq.symm
  · rw [if_neg (mt beq_iff_eq.1 hkey)] at heq
    subst heq
    exact .inr ⟨hold, hkey⟩

theorem stored?_some {c : Cache τ α} {key : String} {e : Entry τ α}
    (hfound : c.stored? key = some e) : e ∈ c.entries ∧ e.key = key :=
  ⟨List.mem_of_find?_eq_some hfound, by simpa using List.find?_some hfound⟩

theorem makeRoom_sublist (c : Cache τ α) : c.makeRoom.1.entries.Sublist c.entries := by
  unfold makeRoom
  split
  · exact List.Sublist.refl _
  · rename_i oldest rest hentries
    split
    · rw [hentries]
      exact List.sublist_cons_self oldest rest
    · exact List.Sublist.refl _

theorem erase_keeps (c : Cache τ α) (key : String) : Keeps c (c.erase key).2 := by
  unfold erase
  split
  · exact .of_subset fun e he => (mem_without.1 he).1
  · exact .of_subset (List.Subset.refl _)

theorem eraseMatching_keeps (c : Cache τ α) (pattern : String) :
    Keeps c (c.eraseMatching pattern).2.1 :=
  .of_subset fun _ he => List.mem_of_mem_filter he

/-- What stands in a cache behind a placed entry: that entry, and entries of other keys. -/
theorem mem_place {c : Cache τ α} {new e : Entry τ α} (hmem : e ∈ (c.place new).1.entries) :
    e = new ∨ e ∈ c.entries ∧ e.key ≠ new.key := by
  unfold place at hmem
  split at hmem
  · exact mem_replace hmem
  · rename_i habsent
    rcases List.mem_append.1 hmem with hold | hnew
    · refine .inr ⟨(makeRoom_sublist c).subset hold, fun hkey => habsent ?_⟩
      rw [stored?, List.find?_isSome]
      exact ⟨e, (makeRoom_sublist c).subset hold, beq_iff_eq.2 hkey⟩
    · exact .inl (List.mem_singleton.1 hnew)

variable [Timeline τ]

/-- An entry that can be told expired or not has a deadline. -/
theorem Entry.isExpired_eq_ok {e : Entry τ α} {now : τ} {expired : Bool}
    (hexpired : e.isExpired now = .ok expired) :
    ∃ deadline, Timeline.after e.createdAt e.ttl = .ok deadline ∧
      Timeline.reached now deadline = expired := by
  rw [isExpired, expiresAt] at hexpired
  cases hafter : Timeline.after e.createdAt e.ttl with
  | error cause =>
      rw [hafter] at hexpired
      cases hexpired
  | ok deadline =>
      rw [hafter] at hexpired
      exact ⟨deadline, rfl, Except.ok.inj hexpired⟩

/-- What a lookup can find: nothing, an entry that has expired and goes, or an entry that lives. -/
inductive Looks (c : Cache τ α) (now : τ) (key : String) :
    Option (Entry τ α) → Cache τ α → Prop
  | absent (missing : c.stored? key = none) : Looks c now key none c
  | expired {e : Entry τ α} (stored : c.stored? key = some e)
      (expired : e.isExpired now = .ok true) :
      Looks c now key none { c with entries := without key c.entries }
  | live {e : Entry τ α} (stored : c.stored? key = some e)
      (unexpired : e.isExpired now = .ok false) : Looks c now key (some e) c

theorem live_looks {c left : Cache τ α} {now : τ} {key : String} {found : Option (Entry τ α)}
    (hlive : c.live now key = .ok (found, left)) : Looks c now key found left := by
  unfold live at hlive
  cases hentry : c.stored? key with
  | none =>
      rw [hentry] at hlive
      obtain ⟨rfl, rfl⟩ := Prod.mk.inj (Except.ok.inj hlive)
      exact .absent hentry
  | some e =>
      rw [hentry] at hlive
      cases hexpired : e.isExpired now with
      | error cause =>
          simp only [hexpired] at hlive
          cases hlive
      | ok expired =>
          simp only [hexpired] at hlive
          cases expired with
          | false =>
              obtain ⟨rfl, rfl⟩ := Prod.mk.inj (Except.ok.inj hlive)
              exact .live hentry hexpired
          | true =>
              obtain ⟨rfl, rfl⟩ := Prod.mk.inj (Except.ok.inj hlive)
              exact .expired hentry hexpired

theorem Looks.keeps {c left : Cache τ α} {now : τ} {key : String} {found : Option (Entry τ α)}
    (hlooks : Looks c now key found left) : Keeps c left := by
  cases hlooks with
  | absent missing => exact .of_subset (List.Subset.refl _)
  | expired stored expired => exact .of_subset fun e he => (mem_without.1 he).1
  | live stored unexpired => exact .of_subset (List.Subset.refl _)

theorem get?_eq_ok {c left : Cache τ α} {now : τ} {key : String} {found : Option (Entry τ α)}
    (hget : c.get? now key = .ok (found, left)) :
    ∃ found' left', Looks c now key found' left' ∧ countLookup (found', left') = (found, left) := by
  unfold get? at hget
  rcases hlive : c.live now key with cause | ⟨found', left'⟩
  · rw [hlive] at hget
    cases hget
  · rw [hlive] at hget
    exact ⟨found', left', live_looks hlive, Except.ok.inj hget⟩

/-- The entry that a lookup finds is the one stored, with one hit more. -/
theorem get?_eq_some {c left : Cache τ α} {now : τ} {key : String} {e : Entry τ α}
    (hget : c.get? now key = .ok (some e, left)) :
    ∃ old, c.stored? key = some old ∧ old.isExpired now = .ok false ∧
      e = { old with hits := old.hits + 1 } ∧ left.entries = replace e c.entries := by
  obtain ⟨found, left', hlooks, hcount⟩ := get?_eq_ok hget
  cases hlooks with
  | absent missing => cases hcount
  | expired stored expired => cases hcount
  | live stored unexpired =>
      cases hcount
      exact ⟨_, stored, unexpired, rfl, rfl⟩

theorem get?_keeps {c left : Cache τ α} {now : τ} {key : String} {found : Option (Entry τ α)}
    (hget : c.get? now key = .ok (found, left)) : Keeps c left := by
  cases found with
  | none =>
      obtain ⟨found, left', hlooks, hcount⟩ := get?_eq_ok hget
      have hkeeps := hlooks.keeps
      cases found with
      | none =>
          cases hcount
          exact hkeeps
      | some e => cases hcount
  | some e =>
      obtain ⟨old, hstored, -, rfl, hleft⟩ := get?_eq_some hget
      intro e' he'
      rw [hleft] at he'
      rcases mem_replace he' with rfl | ⟨hmem, -⟩
      · exact ⟨old, (stored?_some hstored).1, rfl⟩
      · exact ⟨e', hmem, rfl⟩

theorem unexpired_sublist {now : τ} {entries kept : List (Entry τ α)}
    (hkept : unexpired now entries = .ok kept) : kept.Sublist entries := by
  induction entries generalizing kept with
  | nil =>
      obtain rfl := Except.ok.inj hkept
      exact List.Sublist.refl _
  | cons e rest ih =>
      simp only [unexpired] at hkept
      cases hexpired : e.isExpired now with
      | error cause =>
          rw [hexpired] at hkept
          cases hkept
      | ok expired =>
          cases hrest : unexpired now rest with
          | error cause =>
              rw [hexpired, hrest] at hkept
              cases hkept
          | ok others =>
              rw [hexpired, hrest] at hkept
              obtain rfl := Except.ok.inj hkept
              cases expired with
              | false => exact (ih hrest).cons_cons e
              | true => exact (ih hrest).cons e

theorem sweep_eq_ok {c left : Cache τ α} {now : τ} {count : Nat} {log : List LogRecord}
    (hsweep : c.sweep now = .ok (count, left, log)) :
    unexpired now c.entries = .ok left.entries := by
  unfold sweep at hsweep
  cases hkept : unexpired now c.entries with
  | error cause =>
      rw [hkept] at hsweep
      cases hsweep
  | ok kept =>
      rw [hkept] at hsweep
      cases hsweep
      rfl

theorem sweep_keeps {c left : Cache τ α} {now : τ} {count : Nat} {log : List LogRecord}
    (hsweep : c.sweep now = .ok (count, left, log)) : Keeps c left :=
  .of_subset (unexpired_sublist (sweep_eq_ok hsweep)).subset

/-- A store places its entry, and may sweep. -/
theorem store_sublist (c : Cache τ α) (now : τ) (key : String) (payload : α) (ttl : Int) :
    (c.store now key payload ttl).2.1.entries.Sublist
      (c.place { key, payload, createdAt := now, ttl }).1.entries := by
  simp only [store]
  split
  · split
    · rename_i hsweep
      have hkept := sweep_eq_ok hsweep
      exact unexpired_sublist hkept
    · exact List.Sublist.refl _
  · exact List.Sublist.refl _

/-- A store fails only if its sweep does. -/
theorem store_eq_error {c : Cache τ α} {now : τ} {key : String} {payload : α} {ttl : Int}
    {cause : Overflow} (hstore : (c.store now key payload ttl).1 = .error cause) :
    unexpired now (c.place { key, payload, createdAt := now, ttl }).1.entries = .error cause := by
  simp only [store] at hstore
  split at hstore
  · split at hstore
    · cases hstore
    · rename_i hsweep
      cases hstore
      simp only [sweep] at hsweep
      cases hkept : unexpired now (c.place { key, payload, createdAt := now, ttl }).1.entries with
      | error cause' =>
          rw [hkept] at hsweep
          rw [← Except.error.inj hsweep]
      | ok kept =>
          rw [hkept] at hsweep
          cases hsweep
  · cases hstore

/-- Commands that store nothing. -/
def Command.isStore : Command α → Bool
  | .set _ _ _ => true
  | _ => false

theorem step_keeps {c : Cache τ α} {now : τ} {command : Command α}
    (hcommand : command.isStore = false) : Keeps c (c.step now command).2.1 := by
  cases command with
  | get key =>
      simp only [step]
      split
      · exact get?_keeps ‹_›
      · exact .of_subset (List.Subset.refl _)
  | set key payload ttl => cases hcommand
  | contains key =>
      simp only [step]
      split
      · rename_i hcontains
        unfold contains at hcontains
        rcases hlive : c.live now key with cause | ⟨found, left⟩
        · rw [hlive] at hcontains
          cases hcontains
        · rw [hlive] at hcontains
          cases hcontains
          exact (live_looks hlive).keeps
      · exact .of_subset (List.Subset.refl _)
  | delete key => exact erase_keeps c key
  | deletePattern pattern => exact eraseMatching_keeps c pattern
  | invalidateDomain domain => exact eraseMatching_keeps c (domain ++ ":")
  | clear => exact .of_subset (List.nil_subset _)
  | sweep =>
      simp only [step]
      split
      · exact sweep_keeps ‹_›
      · exact .of_subset (List.Subset.refl _)

end IssueSearch.Cache
