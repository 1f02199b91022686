import IssueSearch.Proofs.Cache.Lookup
/-!
Counters are only counted. A cache answers lookups and stores as it would without its counters, and
leaves the same behind, counters aside.
-/
namespace IssueSearch.Cache

variable {τ α : Type} (c : Cache τ α)

/-- A cache whose counters are set back. -/
def bare : Cache τ α := { c with counters := {} }

@[simp]
theorem entries_bare : c.bare.entries = c.entries := rfl

/-- Caches that differ in their counters only. -/
theorem eq_of_bare {c c' : Cache τ α} (halike : c.bare = c'.bare) :
    c = { c' with counters := c.counters } := by
  have hrest : c = { c.bare with counters := c.counters } := rfl
  rw [hrest, halike]
  rfl

theorem makeRoom_bare : c.bare.makeRoom.1.bare = c.makeRoom.1.bare := by
  have hpolicy : c.bare.policy = c.policy := rfl
  cases hheld : c.entries with
  | nil =>
      simp only [makeRoom, entries_bare, hheld]
      rfl
  | cons oldest rest =>
      by_cases hfull : c.policy.maxKeys ≤ c.entries.length
      · simp only [makeRoom, entries_bare, hpolicy, hheld, if_pos (hheld ▸ hfull)]
        rfl
      · simp only [makeRoom, entries_bare, hpolicy, hheld, if_neg (hheld ▸ hfull)]
        rfl

theorem place_bare (e : Entry τ α) : (c.bare.place e).1.bare = (c.place e).1.bare := by
  have hstored : c.bare.stored? e.key = c.stored? e.key := rfl
  have hbehind (room : Cache τ α) : ({ room with entries := room.entries ++ [e] }).bare =
      { room.bare with entries := room.bare.entries ++ [e] } := rfl
  simp only [place, hstored]
  split
  · rfl
  · rw [hbehind, hbehind, makeRoom_bare]

theorem bare_erase (key : String) :
    (c.erase key).2.bare = { c.bare with entries := without key c.entries } := by
  unfold erase
  split
  · rfl
  · rename_i habsent
    rw [Option.not_isSome_iff_eq_none] at habsent
    rw [without_eq_self habsent]
    rfl

variable [Timeline τ] (now : τ) (key : String)

theorem live_bare : c.bare.live now key = (c.live now key).map (Prod.map id bare) := by
  have hstored : c.bare.stored? key = c.stored? key := rfl
  simp only [live, hstored]
  cases c.stored? key with
  | none => rfl
  | some e =>
      cases hexpired : e.isExpired now with
      | error cause =>
          simp only [hexpired]
          rfl
      | ok expired =>
          simp only [hexpired]
          cases expired <;> rfl

theorem get?_bare :
    (c.bare.get? now key).map (Prod.map id bare) = (c.get? now key).map (Prod.map id bare) := by
  rw [get?, get?, live_bare]
  rcases c.live now key with cause | ⟨_ | e, left⟩ <;> rfl

theorem store_bare (payload : α) (ttl : Int) :
    (c.bare.store now key payload ttl).1 = (c.store now key payload ttl).1 ∧
      (c.bare.store now key payload ttl).2.1.bare = (c.store now key payload ttl).2.1.bare := by
  rcases hplaced : c.place ⟨key, payload, now, ttl, 0⟩ with ⟨placed, log⟩
  rcases hplaced' : c.bare.place ⟨key, payload, now, ttl, 0⟩ with ⟨placed', log'⟩
  have hbare : placed'.bare = placed.bare := by
    have hplace := c.place_bare ⟨key, payload, now, ttl, 0⟩
    rw [hplaced, hplaced'] at hplace
    exact hplace
  rw [eq_of_bare hbare] at hplaced'
  simp only [store, hplaced, hplaced', sweep]
  by_cases hdue : placed.policy.sweepInterval ≤ placed.setsSinceSweep + 1
  · simp only [if_pos hdue]
    cases unexpired now placed.entries <;> exact ⟨rfl, rfl⟩
  · simp only [if_neg hdue]
    exact ⟨trivial, rfl⟩

theorem insert_bare (payload : α) (ttl : Json) :
    (c.bare.insert now key payload ttl).1 = (c.insert now key payload ttl).1 ∧
      (c.bare.insert now key payload ttl).2.1.bare = (c.insert now key payload ttl).2.1.bare := by
  have hpolicy : c.bare.policy = c.policy := rfl
  simp only [insert, hpolicy]
  cases c.policy.resolveTtl key ttl with
  | error cause => exact ⟨rfl, rfl⟩
  | ok seconds =>
      obtain ⟨hstored, hleft⟩ := c.store_bare now key payload seconds
      simp only [hstored]
      exact ⟨trivial, hleft⟩

end IssueSearch.Cache
