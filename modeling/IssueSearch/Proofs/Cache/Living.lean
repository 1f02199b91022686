import IssueSearch.Proofs.Cache.Figures
import IssueSearch.Proofs.Cache.Lookup
/-!
Caches in which there is room and nothing has expired. A lookup finds what is stored, a store puts
its entry into place, and a sweep changes nothing, so that all that happens to one key is what is
done to that key.
-/
namespace IssueSearch.Cache

variable {τ α : Type}

/-- The payload of a key, expired or not. -/
def payload? (c : Cache τ α) (key : String) : Option α := (c.stored? key).map Entry.payload

theorem payload?_congr {c c' : Cache τ α} (hentries : c'.entries = c.entries) (key : String) :
    c'.payload? key = c.payload? key := by
  rw [payload?, payload?, stored?, stored?, hentries]

theorem payload?_erase (c : Cache τ α) (other key : String) :
    (c.erase other).2.payload? key = if key = other then none else c.payload? key := by
  rw [payload?, stored?, erase_entries, find?_without]
  split
  · rfl
  · rfl

/-- Putting an entry into place without giving up another changes what is stored under its key
only. -/
theorem stored?_place {c : Cache τ α} {new : Entry τ α}
    (hroom : (c.place new).1.counters.evictions = c.counters.evictions) (key : String) :
    (c.place new).1.stored? key = if key = new.key then some new else c.stored? key := by
  have hplaces := c.place_places new
  by_cases hkey : key = new.key
  · rw [if_pos hkey, hkey, hplaces.stored?_self]
  · rw [if_neg hkey, stored?, stored?]
    cases hplaces with
    | inPlace present entries evictions =>
        rw [entries, find?_replace]
        simp [hkey]
    | behind absent entries evictions =>
        rw [entries, List.find?_append, find?_cons_of_ne (Ne.symm hkey), List.find?_nil,
          Option.or_none]
    | @instead oldest rest absent full entries evictions => omega

theorem payload?_place {c : Cache τ α} {new : Entry τ α}
    (hroom : (c.place new).1.counters.evictions = c.counters.evictions) (key : String) :
    (c.place new).1.payload? key = if key = new.key then some new.payload else c.payload? key := by
  rw [payload?, stored?_place hroom]
  split
  · rfl
  · rfl

theorem place_policy (c : Cache τ α) (new : Entry τ α) :
    (c.place new).1.policy = c.policy := by
  obtain ⟨entries, evictions, hplace, -⟩ := c.place_frame new
  rw [hplace]

theorem place_size_le (c : Cache τ α) (new : Entry τ α) :
    (c.place new).1.size ≤ c.size + 1 := by
  unfold place
  split
  · simp [size, replace]
  · have hroom := (makeRoom_sublist c).length_le
    simpa [size] using hroom

theorem makeRoom_of_room {c : Cache τ α} (hroom : c.size < c.policy.maxKeys) :
    c.makeRoom = (c, []) := by
  unfold makeRoom
  split
  · rfl
  · exact if_neg (Nat.not_le_of_lt hroom)

/-- With room for one more entry none is given up. -/
theorem place_evictions {c : Cache τ α} (hroom : c.size < c.policy.maxKeys) (new : Entry τ α) :
    (c.place new).1.counters.evictions = c.counters.evictions := by
  unfold place
  split
  · rfl
  · rw [makeRoom_of_room hroom]

/-- Counting a lookup leaves what is stored. -/
theorem payload?_countLookup (c : Cache τ α) (key other : String) :
    (countLookup (c.stored? key, c)).2.payload? other = c.payload? other := by
  cases hstored : c.stored? key with
  | none => rfl
  | some e =>
      have hkey : e.key = key := (stored?_some hstored).2
      simp only [countLookup, payload?, stored?, find?_replace]
      rw [stored?] at hstored
      by_cases hother : other = key
      · rw [hother, hstored]
        simp [hkey]
      · rw [hkey]
        simp [hother]

/-! ### Room for entries -/

/-- A cache that has lost entries of another at most, none of them to make room. -/
structure Trims (c left : Cache τ α) : Prop where
  policy_eq : left.policy = c.policy
  evictions_eq : left.counters.evictions = c.counters.evictions
  size_le : left.size ≤ c.size

theorem Trims.refl (c : Cache τ α) : Trims c c := ⟨rfl, rfl, Nat.le_refl _⟩

theorem Trims.trans {left last : Cache τ α} (hfirst : Trims c left) (hsecond : Trims left last) :
    Trims c last where
  policy_eq := hsecond.policy_eq.trans hfirst.policy_eq
  evictions_eq := hsecond.evictions_eq.trans hfirst.evictions_eq
  size_le := Nat.le_trans hsecond.size_le hfirst.size_le

theorem erase_trims (c : Cache τ α) (key : String) : Trims c (c.erase key).2 := by
  unfold erase
  split
  · exact ⟨rfl, rfl, List.length_filter_le _ _⟩
  · exact .refl c

variable [Timeline τ]

variable {c : Cache τ α} {now : τ}

theorem get?_trims {key : String} {found : Option (Entry τ α)} {left : Cache τ α}
    (hlooked : c.get? now key = .ok (found, left)) : Trims c left := by
  obtain ⟨found', left', hlooks, hcount⟩ := get?_eq_ok hlooked
  obtain ⟨entries, hits, misses, hframe, hlength, -⟩ := countLookup_frame found' left'
  rw [hcount] at hframe
  have hcounted : Trims left' left := by
    rw [show left = _ from hframe]
    exact ⟨rfl, rfl, Nat.le_of_eq hlength⟩
  refine Trims.trans ?_ hcounted
  cases hlooks with
  | absent missing => exact .refl c
  | expired stored expired => exact ⟨rfl, rfl, List.length_filter_le _ _⟩
  | live stored unexpired => exact .refl c

theorem sweep_trims {count : Nat} {left : Cache τ α} {log : List LogRecord}
    (hsweep : c.sweep now = .ok (count, left, log)) : Trims c left := by
  have hlength := (unexpired_sublist (sweep_eq_ok hsweep)).length_le
  unfold sweep at hsweep
  cases hkept : unexpired now c.entries with
  | error cause =>
      rw [hkept] at hsweep
      cases hsweep
  | ok kept =>
      rw [hkept] at hsweep
      cases hsweep
      exact ⟨rfl, rfl, hlength⟩

theorem store_trims (c : Cache τ α) (now : τ) (key : String) (payload : α) (ttl : Int) :
    Trims (c.place ⟨key, payload, now, ttl, 0⟩).1 (c.store now key payload ttl).2.1 := by
  have hcounted : Trims (c.place ⟨key, payload, now, ttl, 0⟩).1
      { (c.place ⟨key, payload, now, ttl, 0⟩).1 with
        counters.sets := (c.place ⟨key, payload, now, ttl, 0⟩).1.counters.sets + 1
        setsSinceSweep := (c.place ⟨key, payload, now, ttl, 0⟩).1.setsSinceSweep + 1 } :=
    ⟨rfl, rfl, Nat.le_refl _⟩
  simp only [store]
  split
  · split
    · exact hcounted.trans (sweep_trims ‹_›)
    · exact hcounted
  · exact hcounted

/-! ### Nothing has expired -/

/-- No entry has expired, and the clock can tell of each. -/
def Living (c : Cache τ α) (now : τ) : Prop := ∀ e ∈ c.entries, e.isExpired now = .ok false

theorem unexpired_eq_self {entries : List (Entry τ α)}
    (hliving : ∀ e ∈ entries, e.isExpired now = .ok false) :
    unexpired now entries = .ok entries := by
  induction entries with
  | nil => rfl
  | cons e rest ih =>
      rw [List.forall_mem_cons] at hliving
      rw [unexpired, hliving.1, ih hliving.2]
      rfl

theorem Living.sweep (hliving : c.Living now) :
    c.sweep now = .ok (0, { c with setsSinceSweep := 0 }, []) := by
  simp only [Cache.sweep, unexpired_eq_self hliving, Except.map, afterSweep, Nat.sub_self, if_true]

/-- A lookup finds what is stored. -/
theorem Living.get?_eq (hliving : c.Living now) (key : String) :
    c.get? now key = .ok (countLookup (c.stored? key, c)) := by
  unfold get? live
  cases hstored : c.stored? key with
  | none => rfl
  | some e =>
      simp only [hliving e (stored?_some hstored).1]
      rfl

/-- A store puts its entry into place, and neither it nor the sweep behind it does anything else to
the entries. -/
theorem Living.store {key : String} {payload : α} {ttl : Int} (hliving : c.Living now)
    (hnew : (⟨key, payload, now, ttl, 0⟩ : Entry τ α).isExpired now = .ok false) :
    ∃ left log, c.store now key payload ttl = (.ok ⟨key, payload, now, ttl, 0⟩, left, log) ∧
      left.Living now ∧ left.entries = (c.place ⟨key, payload, now, ttl, 0⟩).1.entries := by
  have hplaced : ∀ e ∈ (c.place ⟨key, payload, now, ttl, 0⟩).1.entries,
      e.isExpired now = .ok false := by
    intro e he
    rcases mem_place he with rfl | ⟨hold, -⟩
    · exact hnew
    · exact hliving e hold
  rcases hplace : c.place ⟨key, payload, now, ttl, 0⟩ with ⟨placed, log⟩
  rw [hplace] at hplaced
  have hsweep : Cache.sweep { placed with
      counters.sets := placed.counters.sets + 1
      setsSinceSweep := placed.setsSinceSweep + 1 } now = _ := Living.sweep hplaced
  simp only [Cache.store, hplace]
  split
  · rw [hsweep]
    exact ⟨_, _, rfl, hplaced, rfl⟩
  · exact ⟨_, _, rfl, hplaced, rfl⟩

end IssueSearch.Cache
