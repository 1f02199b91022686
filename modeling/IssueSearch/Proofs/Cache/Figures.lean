import IssueSearch.Proofs.Cache.Lookup
/-!
What commands put on the books of a cache. Every event has its figures: how many lookups and stores
it counts for, and how many entries it brings in, deletes, clears away, drops or sweeps out. What a
command does to the counters, to the size and to the count of stores since the last sweep is told by
its figures alone.

A command fails exactly when the clock cannot tell the deadline of an entry that it examines.
-/
namespace IssueSearch.Cache

variable {τ α : Type}

/-- How many entries a reply says to have been removed. -/
def Reply.removedCount : Reply τ α → Nat
  | .removed count => count
  | _ => 0

/-- What an event counts for. -/
structure Figures where
  lookups : Nat := 0
  /-- Lookups that find neither an entry nor that there is none. -/
  failedLookups : Nat := 0
  /-- Stores that put their payload into the cache. -/
  stores : Nat := 0
  /-- Those of them whose sweep fails. -/
  failedSweeps : Nat := 0
  /-- Those of them whose key was absent. -/
  inserts : Nat := 0
  deleted : Nat := 0
  cleared : Nat := 0
  /-- Expired entries that a lookup drops. -/
  dropped : Nat := 0
  /-- Expired entries that a sweep drops. -/
  swept : Nat := 0
  /-- Whether a sweep is carried through. -/
  sweeps : Bool := false

/-- What figures say of the cache that is found and the one that is left. -/
structure Posted (c left : Cache τ α) (f : Figures) : Prop where
  policy : left.policy = c.policy
  lookups : left.counters.hits + left.counters.misses + f.failedLookups =
    c.counters.hits + c.counters.misses + f.lookups
  sets : left.counters.sets = c.counters.sets + f.stores
  deletes : left.counters.deletes = c.counters.deletes + f.deleted
  balance : left.size + left.counters.evictions + f.deleted + f.cleared + f.dropped + f.swept =
    c.size + c.counters.evictions + f.inserts
  swept : f.sweeps = true → left.setsSinceSweep = 0
  unswept : f.sweeps = false → left.setsSinceSweep < c.policy.sweepInterval ∨
    left.setsSinceSweep = c.setsSinceSweep + f.failedSweeps
  size_le : c.size ≤ c.policy.maxKeys → left.size ≤ c.policy.maxKeys

/-! ### What the counters and the size come to -/

theorem length_without {entries : List (Entry τ α)} (hnodup : (entries.map Entry.key).Nodup)
    {e : Entry τ α} (hmem : e ∈ entries) :
    (without e.key entries).length + 1 = entries.length := by
  induction entries with
  | nil => cases hmem
  | cons first rest ih =>
      rw [List.map_cons, List.nodup_cons] at hnodup
      by_cases hkey : first.key = e.key
      · have hrest : without e.key rest = rest := by
          apply List.filter_eq_self.2
          intro other hother
          rw [bne_iff_ne]
          intro hsame
          apply hnodup.1
          rw [hkey, ← hsame]
          exact List.mem_map_of_mem hother
        have hdrop : without e.key (first :: rest) = without e.key rest :=
          List.filter_cons_of_neg (by simp [hkey])
        rw [hdrop, hrest, List.length_cons]
      · have hkeep : without e.key (first :: rest) = first :: without e.key rest :=
          List.filter_cons_of_pos (by simp [hkey])
        have hlater : e ∈ rest := by
          rcases List.mem_cons.1 hmem with rfl | hlater
          · exact absurd rfl hkey
          · exact hlater
        rw [hkeep, List.length_cons, List.length_cons, ih hnodup.2 hlater]

/-- Counting a lookup changes nothing but hits and misses, of which one goes up. -/
theorem countLookup_frame (found : Option (Entry τ α)) (c : Cache τ α) : ∃ entries hits misses,
    (countLookup (found, c)).2 =
      { c with entries, counters := { c.counters with hits, misses } } ∧
    entries.length = c.size ∧ hits + misses = c.counters.hits + c.counters.misses + 1 := by
  cases found with
  | none => exact ⟨_, _, _, rfl, rfl, by omega⟩
  | some e => exact ⟨_, _, _, rfl, by simp [replace, size], by omega⟩

/-- Making room for an entry gives up one at most, which counts as evicted. -/
theorem makeRoom_frame (c : Cache τ α) : ∃ entries evictions,
    c.makeRoom.1 = { c with entries, counters.evictions := evictions } ∧
    entries.length + evictions = c.size + c.counters.evictions ∧
    (c.size ≤ c.policy.maxKeys → entries.length < c.policy.maxKeys) := by
  unfold makeRoom size
  split
  · rename_i hempty
    refine ⟨c.entries, c.counters.evictions, rfl, rfl, fun _ => ?_⟩
    rw [hempty]
    exact c.policy.maxKeys_pos
  · rename_i oldest rest hentries
    split
    · refine ⟨rest, c.counters.evictions + 1, rfl, ?_⟩
      rw [hentries, List.length_cons]
      omega
    · rename_i hroom
      exact ⟨c.entries, c.counters.evictions, rfl, rfl, fun _ => Nat.lt_of_not_le hroom⟩

/-- Placing an entry changes nothing but the entries and the evictions, and brings in one entry if
its key was absent. -/
theorem place_frame (c : Cache τ α) (new : Entry τ α) : ∃ entries evictions,
    (c.place new).1 = { c with entries, counters.evictions := evictions } ∧
    entries.length + evictions =
      c.size + c.counters.evictions + (c.stored? new.key).isNone.toNat ∧
    (c.size ≤ c.policy.maxKeys → entries.length ≤ c.policy.maxKeys) := by
  unfold place
  split
  · rename_i hpresent
    obtain ⟨old, hold⟩ := Option.isSome_iff_exists.1 hpresent
    refine ⟨replace new c.entries, c.counters.evictions, rfl, ?_, ?_⟩
    · simp [hold, replace, size]
    · simp [replace, size]
  · rename_i habsent
    rw [Option.not_isSome_iff_eq_none] at habsent
    obtain ⟨entries, evictions, hroom, hlength, hlt⟩ := makeRoom_frame c
    refine ⟨entries ++ [new], evictions, ?_, ?_, ?_⟩
    · simp only [hroom]
    · rw [habsent, List.length_append, List.length_singleton, Option.isNone_none, Bool.toNat_true]
      omega
    · intro hle
      rw [List.length_append, List.length_singleton]
      exact hlt hle

section Posted

variable {c : Cache τ α} {entries : List (Entry τ α)}

theorem posted_lookup {hits misses lookups failedLookups dropped : Nat}
    (hcount : hits + misses + failedLookups = c.counters.hits + c.counters.misses + lookups)
    (hlength : entries.length + dropped = c.size) :
    Posted c { c with entries, counters := { c.counters with hits, misses } }
      { lookups, failedLookups, dropped } where
  policy := rfl
  lookups := hcount
  sets := rfl
  deletes := rfl
  balance := by
    dsimp only [size] at hlength ⊢
    omega
  swept := fun h => absurd h Bool.false_ne_true
  unswept := fun _ => .inr rfl
  size_le := by
    dsimp only [size] at hlength ⊢
    omega

theorem Posted.refl (c : Cache τ α) : Posted c c {} := posted_lookup rfl rfl

theorem posted_removal {deleted cleared : Nat}
    (hlength : entries.length + deleted + cleared = c.size) :
    Posted c { c with entries, counters.deletes := c.counters.deletes + deleted }
      { deleted, cleared } where
  policy := rfl
  lookups := rfl
  sets := rfl
  deletes := rfl
  balance := by
    dsimp only [size] at hlength ⊢
    omega
  swept := fun h => absurd h Bool.false_ne_true
  unswept := fun _ => .inr rfl
  size_le := by
    dsimp only [size] at hlength ⊢
    omega

theorem posted_eraseMatching (c : Cache τ α) (pattern : String) :
    Posted c (c.eraseMatching pattern).2.1 { deleted := (c.eraseMatching pattern).1 } := by
  apply posted_removal
  have hle : (c.entries.filter fun e =>
      !Text.occursIn pattern.toList e.key.toList).length ≤ c.entries.length :=
    List.length_filter_le _ _
  dsimp only [size]
  omega

theorem posted_sweep {swept : Nat} (hlength : entries.length + swept = c.size) :
    Posted c { c with entries, setsSinceSweep := 0 } { swept, sweeps := true } where
  policy := rfl
  lookups := rfl
  sets := rfl
  deletes := rfl
  balance := by
    dsimp only [size] at hlength ⊢
    omega
  swept := fun _ => rfl
  unswept := fun h => absurd h (Ne.symm Bool.false_ne_true)
  size_le := by
    dsimp only [size] at hlength ⊢
    omega

theorem posted_store {evictions inserts swept failedSweeps setsSinceSweep : Nat} {sweeps : Bool}
    (hlength : entries.length + evictions + swept = c.size + c.counters.evictions + inserts)
    (hroom : c.size ≤ c.policy.maxKeys → entries.length ≤ c.policy.maxKeys)
    (hswept : sweeps = true → setsSinceSweep = 0)
    (hunswept : sweeps = false → setsSinceSweep < c.policy.sweepInterval ∨
      setsSinceSweep = c.setsSinceSweep + failedSweeps) :
    Posted c
      { c with
        entries
        counters := { c.counters with sets := c.counters.sets + 1, evictions }
        setsSinceSweep }
      { stores := 1, failedSweeps, inserts, swept, sweeps } where
  policy := rfl
  lookups := rfl
  sets := rfl
  deletes := rfl
  balance := by
    dsimp only [size] at hlength ⊢
    omega
  swept := hswept
  unswept := hunswept
  size_le := hroom

end Posted

/-! ### What an event counts for -/

variable [Timeline τ]

/-- Whether an entry can be told to have expired. -/
def Entry.hasExpired (now : τ) (e : Entry τ α) : Bool :=
  match e.isExpired now with
  | .ok expired => expired
  | .error _ => false

namespace Event

/-- The clock cannot tell what the command has to know. -/
def fails (ev : Event τ α) : Bool :=
  match ev.reply with
  | .failed (.overflow _) => true
  | _ => false

/-- Whether a sweep follows the next store. -/
def due (ev : Event τ α) : Bool :=
  decide (ev.cache.policy.sweepInterval ≤ ev.cache.setsSinceSweep + 1)

/-- The entries whose deadlines a command asks for. -/
def examines (ev : Event τ α) : List (Entry τ α) :=
  match ev.command with
  | .get key | .contains key => (ev.cache.stored? key).toList
  | .set key payload ttl =>
      match ev.cache.policy.resolveTtl key ttl with
      | .ok seconds =>
          if ev.due then (ev.cache.place ⟨key, payload, ev.time, seconds, 0⟩).1.entries else []
      | .error _ => []
  | .sweep => ev.cache.entries
  | .delete _ | .deletePattern _ | .invalidateDomain _ | .clear => []

/-- How many of the examined entries have expired; none counts if one of them cannot be told. -/
def expired (ev : Event τ α) : Nat :=
  if ev.fails then 0 else ev.examines.countP (Entry.hasExpired ev.time)

def figures (ev : Event τ α) : Figures :=
  match ev.command with
  | .get _ => { lookups := 1, failedLookups := ev.fails.toNat, dropped := ev.expired }
  | .contains _ => { dropped := ev.expired }
  | .set key _ ttl =>
      match ev.cache.policy.resolveTtl key ttl with
      | .ok _ => {
          stores := 1
          failedSweeps := ev.fails.toNat
          inserts := (ev.cache.stored? key).isNone.toNat
          swept := ev.expired
          sweeps := ev.due && !ev.fails }
      | .error _ => {}
  | .delete _ | .deletePattern _ | .invalidateDomain _ => { deleted := ev.reply.removedCount }
  | .clear => { cleared := ev.cache.size }
  | .sweep => { swept := ev.expired, sweeps := !ev.fails }

/-- An event does what its figures say, and fails only for want of a deadline. -/
structure Posts (ev : Event τ α) : Prop where
  posted : Posted ev.cache ev.left ev.figures
  fails_iff : ev.fails = true ↔ ∃ e ∈ ev.examines, ∃ cause, e.expiresAt = .error cause

variable {c left : Cache τ α} {now : τ} {command : Command α} {log : List LogRecord}

/-- A command that succeeds has been told the deadlines it asked for. -/
theorem posts_of_told {reply : Reply τ α} (hstep : c.step now command = (reply, left, log))
    (hreply : ∀ cause, reply ≠ .failed (.overflow cause))
    (htold : ∀ e ∈ examines ⟨c, now, command⟩, ∀ cause, e.expiresAt ≠ .error cause)
    (hposted : fails ⟨c, now, command⟩ = false → Posted c left (figures ⟨c, now, command⟩)) :
    Posts ⟨c, now, command⟩ := by
  have hfails : fails ⟨c, now, command⟩ = false := by
    rw [fails, Event.reply, hstep]
    split
    · rename_i cause hcause
      exact absurd hcause (hreply cause)
    · rfl
  constructor
  · rw [Event.left, hstep]
    exact hposted hfails
  · rw [hfails]
    apply iff_of_false Bool.false_ne_true
    rintro ⟨e, hmem, cause, hcause⟩
    exact htold e hmem cause hcause

/-- A command that fails has not. -/
theorem posts_of_untold {cause : Overflow}
    (hstep : c.step now command = (.failed (.overflow cause), left, log))
    (huntold : ∃ e ∈ examines ⟨c, now, command⟩, ∃ cause, e.expiresAt = .error cause)
    (hposted : fails ⟨c, now, command⟩ = true → Posted c left (figures ⟨c, now, command⟩)) :
    Posts ⟨c, now, command⟩ := by
  have hfails : fails ⟨c, now, command⟩ = true := by rw [fails, Event.reply, hstep]
  constructor
  · rw [Event.left, hstep]
    exact hposted hfails
  · exact iff_of_true hfails huntold

end Event

/-! ### Expired entries -/

/-- A sweep fails if one of the entries cannot be told expired or not. Otherwise it keeps those that
have not expired. -/
theorem unexpired_cases (now : τ) (entries : List (Entry τ α)) :
    ((∃ cause, unexpired now entries = .error cause) ∧
      ∃ e ∈ entries, ∃ cause, e.expiresAt = .error cause) ∨
    (unexpired now entries = .ok (entries.filter fun e => !e.hasExpired now) ∧
      ∀ e ∈ entries, ∀ cause, e.expiresAt ≠ .error cause) := by
  induction entries with
  | nil => exact .inr ⟨rfl, by simp⟩
  | cons e rest ih =>
      cases hexpires : e.expiresAt with
      | error cause =>
          refine .inl ⟨⟨cause, ?_⟩, e, List.mem_cons_self, cause, hexpires⟩
          rw [unexpired, Entry.isExpired, hexpires]
          rfl
      | ok deadline =>
          have hexpired : e.isExpired now = .ok (Timeline.reached now deadline) := by
            rw [Entry.isExpired, hexpires]
            rfl
          have hflag : e.hasExpired now = Timeline.reached now deadline := by
            rw [Entry.hasExpired, hexpired]
          rcases ih with ⟨⟨cause, hrest⟩, other, hother, hcause⟩ | ⟨hrest, htold⟩
          · refine .inl ⟨⟨cause, ?_⟩, other, List.mem_cons_of_mem e hother, hcause⟩
            rw [unexpired, hexpired, hrest]
            rfl
          · refine .inr ⟨?_, ?_⟩
            · rw [unexpired, hexpired, hrest, List.filter_cons, hflag]
              cases Timeline.reached now deadline <;> rfl
            · rw [List.forall_mem_cons]
              exact ⟨by simp [hexpires], htold⟩

theorem length_kept (now : τ) (entries : List (Entry τ α)) :
    (entries.filter fun e => !e.hasExpired now).length + entries.countP (Entry.hasExpired now) =
      entries.length := by
  have hsplit := List.length_eq_countP_add_countP (Entry.hasExpired now) (l := entries)
  rw [← List.countP_eq_length_filter, hsplit, Nat.add_comm]
  simp

theorem live_eq_error {c : Cache τ α} {now : τ} {key : String} {cause : Overflow}
    (hlive : c.live now key = .error cause) :
    ∃ e, c.stored? key = some e ∧ ∃ cause, e.expiresAt = .error cause := by
  rw [live] at hlive
  cases hstored : c.stored? key with
  | none =>
      rw [hstored] at hlive
      cases hlive
  | some e =>
      rw [hstored] at hlive
      cases hexpires : e.expiresAt with
      | error cause' => exact ⟨e, rfl, cause', hexpires⟩
      | ok deadline =>
          simp only [Entry.isExpired, hexpires] at hlive
          cases hlive

theorem expiresAt_ne_error {e : Entry τ α} {now : τ} {expired : Bool}
    (hexpired : e.isExpired now = .ok expired) (cause : Overflow) :
    e.expiresAt ≠ .error cause := by
  intro hcause
  rw [Entry.isExpired, hcause] at hexpired
  cases hexpired

/-- A lookup that succeeds changes nothing but the entries, of which it drops the one that it has
found to be expired. -/
theorem Looks.posts {c left : Cache τ α} {now : τ} {key : String} {found : Option (Entry τ α)}
    (hlooks : Looks c now key found left) (hnodup : c.keys.Nodup) :
    left = { c with entries := left.entries } ∧
    left.size + (c.stored? key).toList.countP (Entry.hasExpired now) = c.size ∧
    ∀ e ∈ (c.stored? key).toList, ∀ cause, e.expiresAt ≠ .error cause := by
  cases hlooks with
  | absent missing => simp [missing]
  | @expired e stored expired =>
      obtain ⟨hmem, rfl⟩ := stored?_some stored
      have hflag : e.hasExpired now = true := by rw [Entry.hasExpired, expired]
      simpa [stored, hflag, expiresAt_ne_error expired, size] using length_without hnodup hmem
  | @live e stored unexpired =>
      have hflag : e.hasExpired now = false := by rw [Entry.hasExpired, unexpired]
      simp [stored, hflag, expiresAt_ne_error unexpired]

end IssueSearch.Cache
