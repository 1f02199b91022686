import IssueSearch.Cache.ReadThrough
import IssueSearch.Cache.WarmUp
import IssueSearch.Proofs.Cache.Books
import IssueSearch.Proofs.Cache.Living
/-!
First in, first out. The keys of a cache stand in the order in which they came to be present. A
store of an absent key puts it behind the others, and gives up the first key if there is no room;
keys that are removed or found to be expired go, and nothing else moves. To be present is to be
stored: an entry that has expired and has not been looked at since keeps its place, also when it is
written again.
-/
namespace IssueSearch.Cache

variable {τ α : Type}

theorem keys_without (key : String) (entries : List (Entry τ α)) :
    (without key entries).map Entry.key = (entries.map Entry.key).filter (· != key) := by
  rw [without, List.filter_map]
  rfl

/-- Among distinct keys, to leave out entries is to leave out their keys. -/
theorem keys_filter_not {entries : List (Entry τ α)} (hnodup : (entries.map Entry.key).Nodup)
    (p : Entry τ α → Bool) : (entries.filter fun e => !p e).map Entry.key =
      (entries.map Entry.key).filter fun key => !entries.any fun e => e.key == key && p e := by
  rw [List.filter_map]
  congr 1
  refine List.filter_congr fun e he => ?_
  rw [Function.comp_apply, Bool.not_inj_iff, Bool.eq_iff_iff, List.any_eq_true]
  constructor
  · intro hp
    exact ⟨e, he, by simpa using hp⟩
  · rintro ⟨other, hother, hboth⟩
    obtain ⟨hkey, hp⟩ := Bool.and_eq_true_iff.1 hboth
    obtain rfl := List.inj_on_of_nodup_map hnodup hother he (beq_iff_eq.1 hkey)
    exact hp

namespace Event

/-- The key that a command brings in: that of a store whose time to live is accepted, if the key is
absent. -/
def brings? (ev : Event τ α) : Option String :=
  match ev.command with
  | .set key _ ttl =>
      match ev.cache.policy.resolveTtl key ttl with
      | .ok _ => if (ev.cache.stored? key).isSome then none else some key
      | .error _ => none
  | _ => none

/-- Whether a command gives up a key to make room for the one that it brings in. -/
def makesRoom (ev : Event τ α) : Bool :=
  ev.brings?.isSome && decide (ev.cache.policy.maxKeys ≤ ev.cache.size)

/-- Whether a command removes a key on purpose. -/
def deletes (ev : Event τ α) (key : String) : Bool :=
  match ev.command with
  | .delete other => other == key
  | .deletePattern pattern => Text.occursIn pattern.toList key.toList
  | .invalidateDomain domain => Text.occursIn (domain ++ ":").toList key.toList
  | .clear => true
  | .get _ | .set _ _ _ | .contains _ | .sweep => false

theorem not_mem_of_brings? {ev : Event τ α} {key : String} (hbrings : ev.brings? = some key) :
    key ∉ ev.cache.keys := by
  unfold brings? at hbrings
  split at hbrings
  · split at hbrings
    · split at hbrings
      · cases hbrings
      · rename_i habsent
        obtain rfl := Option.some.inj hbrings
        exact stored?_eq_none_iff.1 (Option.not_isSome_iff_eq_none.1 habsent)
    · cases hbrings
  · cases hbrings

end Event

variable [Timeline τ]

namespace Event

/-- Whether a command looks at the entry of a key and finds that it has expired. -/
def expires (ev : Event τ α) (key : String) : Bool :=
  !ev.fails && ev.examines.any fun e => e.key == key && e.hasExpired ev.time

/-- What a command does to the row of keys. -/
structure Queues (ev : Event τ α) : Prop where
  /-- The first key is given up if there is no room for the key that is brought in, which stands
  behind the others. Keys that are removed or found expired go, and the rest keep their order. -/
  keys : ev.left.keys =
    ((if ev.makesRoom = true then ev.cache.keys.tail else ev.cache.keys) ++
      ev.brings?.toList).filter fun key => !(ev.deletes key || ev.expires key)
  /-- Nothing else gives up a key. -/
  evictions : ev.left.counters.evictions = ev.cache.counters.evictions + ev.makesRoom.toNat
  /-- A lookup finds no key expired but its own. -/
  lookup : ∀ key other, ev.command = .get key ∨ ev.command = .contains key →
    ev.expires other = true → other = key
  /-- A store finds keys expired only in its sweep. -/
  store : ∀ key payload ttl other, ev.command = .set key payload ttl →
    ev.expires other = true → ev.due = true
  /-- A key comes to be present by being brought in, and then it stands last. -/
  entered : ∀ key, key ∉ ev.cache.keys → key ∈ ev.left.keys →
    ev.brings? = some key ∧ ev.left.keys.getLast? = some key

variable {ev : Event τ α} {key : String}

theorem expires_of_lookup {other : String}
    (hcommand : ev.command = .get key ∨ ev.command = .contains key)
    (hexpires : ev.expires other = true) : other = key := by
  rw [expires, Bool.and_eq_true, List.any_eq_true] at hexpires
  obtain ⟨-, e, hexamined, hboth⟩ := hexpires
  have hstored : ev.cache.stored? key = some e := by
    rcases hcommand with hget | hcontains
    · simpa only [examines, hget, Option.mem_toList, Option.mem_def] using hexamined
    · simpa only [examines, hcontains, Option.mem_toList, Option.mem_def] using hexamined
  rw [Bool.and_eq_true, beq_iff_eq] at hboth
  exact hboth.1.symm.trans (stored?_some hstored).2

theorem due_of_expires {payload : α} {ttl : Json} {other : String}
    (hcommand : ev.command = .set key payload ttl) (hexpires : ev.expires other = true) :
    ev.due = true := by
  rw [expires, Bool.and_eq_true, List.any_eq_true] at hexpires
  obtain ⟨-, e, hexamined, -⟩ := hexpires
  simp only [examines, hcommand] at hexamined
  split at hexamined
  · split at hexamined
    · assumption
    · cases hexamined
  · cases hexamined

/-- What is said of the row as a whole and of the evictions says the rest. -/
theorem queues_of_keys
    (hkeys : ev.left.keys =
      ((if ev.makesRoom = true then ev.cache.keys.tail else ev.cache.keys) ++
        ev.brings?.toList).filter fun key => !(ev.deletes key || ev.expires key))
    (hevictions : ev.left.counters.evictions =
      ev.cache.counters.evictions + ev.makesRoom.toNat) : ev.Queues where
  keys := hkeys
  evictions := hevictions
  lookup := fun _ _ => expires_of_lookup
  store := fun _ _ _ _ => due_of_expires
  entered := by
    intro key habsent hpresent
    rw [hkeys, List.mem_filter, List.mem_append] at hpresent
    obtain ⟨hold | hnew, hstays⟩ := hpresent
    · refine absurd ?_ habsent
      split at hold
      · exact List.mem_of_mem_tail hold
      · exact hold
    · have hbrings : ev.brings? = some key := Option.mem_toList.1 hnew
      apply And.intro hbrings
      rw [hkeys, hbrings, Option.toList_some, List.filter_append, List.filter_singleton, hstays,
        cond_true, List.getLast?_concat]

/-- A command that brings nothing in only takes keys out of the row. -/
theorem queues_of_brings_none (hbrings : ev.brings? = none)
    (hkeys : ev.left.keys = ev.cache.keys.filter fun key => !(ev.deletes key || ev.expires key))
    (hevictions : ev.left.counters.evictions = ev.cache.counters.evictions) : ev.Queues := by
  have hroom : ev.makesRoom = false := by
    rw [makesRoom, hbrings, Option.isSome_none, Bool.false_and]
  apply queues_of_keys
  · rw [hkeys, hroom, hbrings, Option.toList_none, List.append_nil, if_neg Bool.false_ne_true]
  · rw [hevictions, hroom, Bool.toNat_false, Nat.add_zero]

theorem expires_of_examines_nil (hexamines : ev.examines = []) (key : String) :
    ev.expires key = false := by
  rw [expires, hexamines, List.any_nil, Bool.and_false]

theorem expires_of_fails (hfails : ev.fails = true) (key : String) : ev.expires key = false := by
  rw [expires, hfails, Bool.not_true, Bool.false_and]

theorem expires_of_succeeds (hfails : ev.fails = false) (key : String) :
    ev.expires key = ev.examines.any fun e => e.key == key && e.hasExpired ev.time := by
  rw [expires, hfails, Bool.not_false, Bool.true_and]

end Event

/-! ### Each command -/

theorem Looks.keys {c left : Cache τ α} {now : τ} {key : String} {found : Option (Entry τ α)}
    (hlooks : Looks c now key found left) : left.keys = c.keys.filter fun other =>
      !(c.stored? key).toList.any fun e => e.key == other && e.hasExpired now := by
  cases hlooks with
  | absent missing => simp [missing]
  | @expired e stored expired =>
      have hflag : e.hasExpired now = true := by rw [Entry.hasExpired, expired]
      obtain ⟨-, rfl⟩ := stored?_some stored
      rw [stored, Cache.keys, keys_without]
      refine List.filter_congr fun other _ => ?_
      simp [hflag, bne, BEq.comm]
  | @live e stored unexpired =>
      have hflag : e.hasExpired now = false := by rw [Entry.hasExpired, unexpired]
      simp [stored, hflag]

section Commands

variable {c : Cache τ α} (hnodup : c.keys.Nodup) (now : τ)

include hnodup in
theorem queues_get (key : String) : Event.Queues ⟨c, now, .get key⟩ := by
  rcases hlive : c.live now key with cause | ⟨found, left⟩
  · have hstep := step_get_failed hlive
    have hfails : Event.fails ⟨c, now, .get key⟩ = true := by rw [Event.fails, Event.reply, hstep]
    apply Event.queues_of_brings_none rfl
    · simp [Event.left, hstep, Event.deletes, Event.expires_of_fails hfails]
    · rw [Event.left, hstep]
  · have hstep := step_get_looked hlive
    have hfails : Event.fails ⟨c, now, .get key⟩ = false := by rw [Event.fails, Event.reply, hstep]
    have hlooks := live_looks hlive
    apply Event.queues_of_brings_none rfl
    · rw [Event.left, hstep, countLookup_keys, hlooks.keys]
      simp [Event.deletes, Event.expires_of_succeeds hfails, Event.examines]
    · obtain ⟨entries, hits, misses, hcount, -, -⟩ := countLookup_frame found left
      obtain ⟨hframe, -, -⟩ := hlooks.posts hnodup
      rw [Event.left, hstep, hcount, hframe]

include hnodup in
theorem queues_contains (key : String) : Event.Queues ⟨c, now, .contains key⟩ := by
  rcases hlive : c.live now key with cause | ⟨found, left⟩
  · have hstep := step_contains_failed hlive
    have hfails : Event.fails ⟨c, now, .contains key⟩ = true := by
      rw [Event.fails, Event.reply, hstep]
    apply Event.queues_of_brings_none rfl
    · simp [Event.left, hstep, Event.deletes, Event.expires_of_fails hfails]
    · rw [Event.left, hstep]
  · have hstep := step_contains_looked hlive
    have hfails : Event.fails ⟨c, now, .contains key⟩ = false := by
      rw [Event.fails, Event.reply, hstep]
    have hlooks := live_looks hlive
    apply Event.queues_of_brings_none rfl
    · rw [Event.left, hstep, hlooks.keys]
      simp [Event.deletes, Event.expires_of_succeeds hfails, Event.examines]
    · obtain ⟨hframe, -, -⟩ := hlooks.posts hnodup
      rw [Event.left, hstep, hframe]

/-- A command that removes the keys of which something is true. -/
theorem queues_filter {command : Command α} (hbrings : Event.brings? ⟨c, now, command⟩ = none)
    (hexamines : Event.examines ⟨c, now, command⟩ = [])
    (hleft : (c.step now command).2.1.entries =
      c.entries.filter fun e => !Event.deletes ⟨c, now, command⟩ e.key)
    (hevictions : (c.step now command).2.1.counters.evictions = c.counters.evictions) :
    Event.Queues ⟨c, now, command⟩ := by
  apply Event.queues_of_brings_none hbrings
  · simp only [Event.expires_of_examines_nil hexamines, Bool.or_false, Event.left, Cache.keys,
      hleft, List.filter_map]
    rfl
  · exact hevictions

theorem queues_delete (key : String) : Event.Queues ⟨c, now, .delete key⟩ := by
  apply queues_filter now rfl rfl
  · refine (erase_entries c key).trans (List.filter_congr fun e _ => ?_)
    rw [Event.deletes, bne, BEq.comm]
  · exact (erase_trims c key).evictions_eq

theorem queues_clear : Event.Queues ⟨c, now, .clear⟩ := by
  apply queues_filter now rfl rfl
  · exact (List.filter_eq_nil_iff.2 (by simp [Event.deletes])).symm
  · rfl

include hnodup in
theorem queues_sweep : Event.Queues ⟨c, now, .sweep⟩ := by
  rcases unexpired_cases now c.entries with ⟨⟨cause, hkept⟩, -⟩ | ⟨hkept, -⟩
  · have hstep := step_sweep_failed hkept
    have hfails : Event.fails ⟨c, now, .sweep⟩ = true := by rw [Event.fails, Event.reply, hstep]
    apply Event.queues_of_brings_none rfl
    · simp [Event.left, hstep, Event.deletes, Event.expires_of_fails hfails]
    · rw [Event.left, hstep]
  · obtain ⟨count, log, hstep⟩ := step_sweep_swept hkept
    have hfails : Event.fails ⟨c, now, .sweep⟩ = false := by rw [Event.fails, Event.reply, hstep]
    apply Event.queues_of_brings_none rfl
    · simp only [Event.left, hstep, Cache.keys, keys_filter_not hnodup]
      simp [Event.deletes, Event.expires_of_succeeds hfails, Event.examines]
    · rw [Event.left, hstep]

omit [Timeline τ] in
theorem makeRoom_keys (c : Cache τ α) :
    c.makeRoom.1.keys = (if c.policy.maxKeys ≤ c.size then c.keys.tail else c.keys) ∧
      c.makeRoom.1.counters.evictions =
        c.counters.evictions + (decide (c.policy.maxKeys ≤ c.size)).toNat := by
  by_cases hfull : c.policy.maxKeys ≤ c.size
  · cases hentries : c.entries with
    | nil =>
        rw [size, hentries] at hfull
        exact absurd hfull (Nat.not_le_of_lt c.policy.maxKeys_pos)
    | cons oldest rest =>
        have hroom : c.policy.maxKeys ≤ (oldest :: rest).length := hentries ▸ hfull
        rw [if_pos hfull, decide_eq_true hfull]
        simp only [makeRoom, hentries, if_pos hroom, Cache.keys]
        exact ⟨rfl, rfl⟩
  · rw [makeRoom_of_room (Nat.lt_of_not_le hfull)]
    simp [hfull]

omit [Timeline τ] in
/-- What a store whose time to live is accepted does before it sweeps. -/
theorem place_queues {key : String} {ttl : Json} {seconds : Int}
    (hseconds : c.policy.resolveTtl key ttl = .ok seconds) (payload : α) :
    let ev : Event τ α := ⟨c, now, .set key payload ttl⟩
    (c.place ⟨key, payload, now, seconds, 0⟩).1.keys =
        (if ev.makesRoom = true then c.keys.tail else c.keys) ++ ev.brings?.toList ∧
      (c.place ⟨key, payload, now, seconds, 0⟩).1.counters.evictions =
        c.counters.evictions + ev.makesRoom.toNat := by
  intro ev
  by_cases hpresent : (c.stored? key).isSome = true
  · have hbrings : ev.brings? = none := by simp only [ev, Event.brings?, hseconds, if_pos hpresent]
    have hroom : ev.makesRoom = false := by
      rw [Event.makesRoom, hbrings, Option.isSome_none, Bool.false_and]
    rw [hbrings, hroom, place, if_pos hpresent]
    simp [Cache.keys, keys_replace]
  · have hbrings : ev.brings? = some key := by
      simp only [ev, Event.brings?, hseconds, if_neg hpresent]
    have hroom : ev.makesRoom = decide (c.policy.maxKeys ≤ c.size) := by
      rw [Event.makesRoom, hbrings, Option.isSome_some, Bool.true_and]
    obtain ⟨hkeys, hevictions⟩ := makeRoom_keys c
    rw [hbrings, hroom, place, if_neg hpresent]
    simp only [decide_eq_true_eq, ← hkeys, hevictions]
    simp [Cache.keys]

include hnodup in
/-- What it does in its sweep, or without one. -/
theorem left_placed {key : String} {ttl : Json} {seconds : Int}
    (hseconds : c.policy.resolveTtl key ttl = .ok seconds) (payload : α) :
    let ev : Event τ α := ⟨c, now, .set key payload ttl⟩
    ev.left.keys = (c.place ⟨key, payload, now, seconds, 0⟩).1.keys.filter
        (fun other => !ev.expires other) ∧
      ev.left.counters.evictions =
        (c.place ⟨key, payload, now, seconds, 0⟩).1.counters.evictions := by
  intro ev
  obtain ⟨entries, evictions, hplace, -⟩ := place_frame c ⟨key, payload, now, seconds, 0⟩
  have hdistinct := place_nodup hnodup ⟨key, payload, now, seconds, 0⟩
  rcases hplaced : c.place ⟨key, payload, now, seconds, 0⟩ with ⟨placed, log⟩
  rw [hplaced] at hplace hdistinct
  obtain rfl : placed = _ := hplace
  by_cases hdue : c.policy.sweepInterval ≤ c.setsSinceSweep + 1
  · rcases unexpired_cases now entries with ⟨⟨cause, hkept⟩, -⟩ | ⟨hkept, -⟩
    · have hstep := step_set_failed now hseconds hplaced hdue hkept
      have hfails : ev.fails = true := by rw [Event.fails, Event.reply, hstep]
      simp [ev, Event.left, hstep, Cache.keys, Event.expires_of_fails hfails]
    · obtain ⟨log', hstep⟩ := step_set_swept now hseconds hplaced hdue hkept
      have hfails : ev.fails = false := by rw [Event.fails, Event.reply, hstep]
      have hexamines : ev.examines = entries := by
        simp [ev, Event.examines, hseconds, Event.due, hdue, hplaced]
      simp only [ev, Event.left, hstep, Cache.keys, keys_filter_not hdistinct,
        Event.expires_of_succeeds hfails, hexamines, and_self]
  · have hstep := step_set_unswept now hseconds hplaced hdue
    have hexamines : ev.examines = [] := by
      simp [ev, Event.examines, hseconds, Event.due, hdue]
    simp [ev, Event.left, hstep, Cache.keys, Event.expires_of_examines_nil hexamines]

include hnodup in
theorem queues_set_stored {key : String} {payload : α} {ttl : Json} {seconds : Int}
    (hseconds : c.policy.resolveTtl key ttl = .ok seconds) :
    Event.Queues ⟨c, now, .set key payload ttl⟩ := by
  obtain ⟨hkeys, hevictions⟩ := place_queues now hseconds payload
  obtain ⟨hleft, hcount⟩ := left_placed hnodup now hseconds payload
  apply Event.queues_of_keys
  · rw [hleft, hkeys]
    rfl
  · exact hcount.trans hevictions

theorem queues_set_refused {key : String} {payload : α} {ttl : Json} {cause : InvalidTtl}
    (hrefused : c.policy.resolveTtl key ttl = .error cause) :
    Event.Queues ⟨c, now, .set key payload ttl⟩ := by
  have hstep : c.step now (.set key payload ttl) = _ := step_set_refused now hrefused
  have hexamines : Event.examines ⟨c, now, .set key payload ttl⟩ = [] := by
    simp [Event.examines, hrefused]
  apply Event.queues_of_brings_none
  · simp [Event.brings?, hrefused]
  · simp [Event.left, hstep, Event.deletes, Event.expires_of_examines_nil hexamines]
  · rw [Event.left, hstep]

include hnodup in
theorem step_queues (command : Command α) : Event.Queues ⟨c, now, command⟩ := by
  cases command with
  | get key => exact queues_get hnodup now key
  | set key payload ttl =>
      cases hseconds : c.policy.resolveTtl key ttl with
      | error cause => exact queues_set_refused now hseconds
      | ok seconds => exact queues_set_stored hnodup now hseconds
  | contains key => exact queues_contains hnodup now key
  | delete key => exact queues_delete now key
  | deletePattern pattern => exact queues_filter now rfl rfl rfl rfl
  | invalidateDomain domain => exact queues_filter now rfl rfl rfl rfl
  | clear => exact queues_clear now
  | sweep => exact queues_sweep hnodup now

end Commands

/-! ### The order of a run -/

/-- The n-th event of a history, counted from zero, has made a key present, and it has been present
ever since. -/
def Began (history : List (Event τ α)) (key : String) (n : Nat) : Prop :=
  ∃ before ev after, history = before ++ ev :: after ∧ before.length = n ∧
    key ∉ ev.cache.keys ∧ key ∈ ev.left.keys ∧ ∀ later ∈ after, key ∈ later.left.keys

/-- The keys of a cache stand in the order of the events at which they came to be present. -/
structure InOrder (history : List (Event τ α)) (c : Cache τ α) : Prop where
  nodup : c.keys.Nodup
  present_iff : ∀ key, key ∈ c.keys ↔ ∃ n, Began history key n
  unique : ∀ key m n, Began history key m → Began history key n → m = n
  sorted : c.keys.Pairwise fun key later =>
    ∀ m n, Began history key m → Began history later n → m < n

section Order

variable {history : List (Event τ α)} {ev : Event τ α} {key : String}

theorem Began.lt {n : Nat} (hbegan : Began history key n) : n < history.length := by
  obtain ⟨before, ev, after, rfl, rfl, -⟩ := hbegan
  simp

/-- What the last event of a history makes of the beginnings. -/
theorem began_concat_iff {n : Nat} :
    Began (history ++ [ev]) key n ↔ key ∈ ev.left.keys ∧
      (n = history.length ∧ key ∉ ev.cache.keys ∨ Began history key n) := by
  constructor
  · rintro ⟨before, first, after, hhistory, rfl, habsent, hpresent, hafter⟩
    rcases split_concat hhistory with ⟨rfl, rfl⟩ | ⟨rest, rfl, rfl⟩
    · have hlength := congrArg List.length hhistory
      simp only [List.length_append, List.length_singleton] at hlength
      exact ⟨hpresent, .inl ⟨by omega, habsent⟩⟩
    · refine ⟨hafter ev (by simp), .inr ⟨before, first, rest, rfl, rfl, habsent, hpresent, ?_⟩⟩
      exact fun later hlater => hafter later (List.mem_append_left _ hlater)
  · rintro ⟨hpresent, ⟨rfl, habsent⟩ | ⟨before, first, after, rfl, rfl, habsent, hentered, hafter⟩⟩
    · exact ⟨history, ev, [], rfl, rfl, habsent, hpresent, by simp⟩
    · refine ⟨before, first, after ++ [ev], by simp, rfl, habsent, hentered, ?_⟩
      intro later hlater
      rcases List.mem_append.1 hlater with hlater | hlast
      · exact hafter later hlater
      · rw [List.mem_singleton.1 hlast]
        exact hpresent

theorem InOrder.fresh (policy : Policy) : InOrder [] ({ policy } : Cache τ α) where
  nodup := List.nodup_nil
  present_iff := by
    intro key
    apply iff_of_false List.not_mem_nil
    rintro ⟨n, hbegan⟩
    exact absurd hbegan.lt (Nat.not_lt_zero n)
  unique := by
    intro key m n hbegan
    exact absurd hbegan.lt (Nat.not_lt_zero m)
  sorted := .nil

/-- Running a command keeps the order. -/
theorem InOrder.step {c : Cache τ α} (horder : InOrder history c) (now : τ) (command : Command α) :
    InOrder (history ++ [⟨c, now, command⟩]) (c.step now command).2.1 := by
  obtain ⟨hnodup, hpresent, hunique, hsorted⟩ := horder
  have hqueues := step_queues hnodup now command
  generalize hev : (⟨c, now, command⟩ : Event τ α) = ev at hqueues
  obtain rfl : c = ev.cache := by rw [← hev]
  have hleft : (ev.cache.step now command).2.1 = ev.left := by rw [← hev]; rfl
  rw [hleft]
  -- A key that was present has the beginning that it had, one that was absent begins now.
  have hold : ∀ key n, key ∈ ev.cache.keys →
      (Began (history ++ [ev]) key n ↔ key ∈ ev.left.keys ∧ Began history key n) := by
    intro key n hmem
    rw [began_concat_iff]
    simp [hmem]
  have hnew : ∀ key n, key ∉ ev.cache.keys →
      (Began (history ++ [ev]) key n ↔ key ∈ ev.left.keys ∧ n = history.length) := by
    intro key n hmem
    have hnever : ¬ Began history key n := fun hbegan => hmem ((hpresent key).2 ⟨n, hbegan⟩)
    rw [began_concat_iff]
    simp [hmem, hnever]
  constructor
  · rw [← hleft]
    exact step_nodup hnodup now command
  · intro key
    by_cases hmem : key ∈ ev.cache.keys
    · obtain ⟨n, hbegan⟩ := (hpresent key).1 hmem
      constructor
      · intro hstays
        exact ⟨n, (hold key n hmem).2 ⟨hstays, hbegan⟩⟩
      · rintro ⟨m, hbegins⟩
        exact ((hold key m hmem).1 hbegins).1
    · constructor
      · intro henters
        exact ⟨history.length, (hnew key _ hmem).2 ⟨henters, rfl⟩⟩
      · rintro ⟨m, hbegins⟩
        exact ((hnew key m hmem).1 hbegins).1
  · intro key m n hm hn
    by_cases hmem : key ∈ ev.cache.keys
    · exact hunique key m n ((hold key m hmem).1 hm).2 ((hold key n hmem).1 hn).2
    · rw [((hnew key m hmem).1 hm).2, ((hnew key n hmem).1 hn).2]
  · have hstays : (if ev.makesRoom = true then ev.cache.keys.tail else ev.cache.keys).Sublist
        ev.cache.keys := by
      split
      · exact List.tail_sublist _
      · exact .refl _
    rw [hqueues.keys]
    refine List.Pairwise.filter _ (List.pairwise_append.2 ⟨?_, ?_, ?_⟩)
    · refine (hsorted.sublist hstays).imp_of_mem ?_
      intro key later hkey hlater hlt m n hm hn
      exact hlt m n ((hold key m (hstays.subset hkey)).1 hm).2
        ((hold later n (hstays.subset hlater)).1 hn).2
    · cases ev.brings? with
      | none => exact .nil
      | some key => exact List.pairwise_singleton _ key
    · intro key hkey later hlater m n hm hn
      have habsent := Event.not_mem_of_brings? (Option.mem_toList.1 hlater)
      have hbefore := ((hold key m (hstays.subset hkey)).1 hm).2.lt
      rw [((hnew later n habsent).1 hn).2]
      exact hbefore

theorem run_keeps_order (policy : Policy) (commands : List (τ × Command α)) :
    InOrder (events { policy } commands) (run { policy } commands) := by
  induction commands using List.reverseRecOn with
  | nil => exact .fresh policy
  | append_singleton commands command ih =>
      rw [run_append, events_append]
      exact ih.step command.1 command.2

end Order

/-! ### Everything else is commands -/

variable (c : Cache τ α) (now : τ)

theorem missing_runs (fetches : List (Fetch α)) :
    ∃ commands, (c.missing now fetches).2 = c.run commands := by
  induction fetches generalizing c with
  | nil => exact ⟨[], rfl⟩
  | cons f rest ih =>
      rcases hpresent : c.contains now f.key with cause | ⟨present, left⟩
      · exact ⟨[], by simp only [missing, hpresent, run]⟩
      · have hstep : (c.step now (.contains f.key)).2.1 = left := by simp only [step, hpresent]
        obtain ⟨commands, hrest⟩ := ih left
        refine ⟨(now, .contains f.key) :: commands, ?_⟩
        simp only [missing, hpresent, hrest, run, hstep]

theorem settle_runs (f : Fetch α) : ∃ commands, (c.settle now f).2.1 = c.run commands := by
  rcases hanswer : f.answer with failure | payload
  · exact ⟨[], by simp only [settle, hanswer, run]⟩
  · have hseconds : c.policy.resolveTtl f.key .null = .ok (c.policy.ttlFor f.key) := rfl
    refine ⟨[(now, .set f.key payload .null)], ?_⟩
    simp only [settle, hanswer, run, step_set_left, insert_left hseconds]

theorem arrive_runs (arrivals : List (τ × Fetch α)) :
    ∃ commands, (c.arrive arrivals).2.1 = c.run commands := by
  induction arrivals generalizing c with
  | nil => exact ⟨[], rfl⟩
  | cons arrival rest ih =>
      obtain ⟨commands, hone⟩ := c.settle_runs arrival.1 arrival.2
      obtain ⟨others, hrest⟩ := ih (c.run commands)
      refine ⟨commands ++ others, ?_⟩
      simp only [arrive, hone, hrest, run_append]

theorem fill_runs (schedule : List (Fetch α) → List (τ × Fetch α)) (fetches : List (Fetch α)) :
    ∃ commands, (c.fill now schedule fetches).cache = c.run commands := by
  obtain ⟨commands, hmissing⟩ := c.missing_runs now fetches
  rcases hpending : c.missing now fetches with ⟨cause | pending, left⟩
  · rw [hpending] at hmissing
    obtain rfl : left = _ := hmissing
    exact ⟨commands, by simp only [fill, hpending]⟩
  · rw [hpending] at hmissing
    obtain rfl : left = _ := hmissing
    obtain ⟨others, harrived⟩ := (c.run commands).arrive_runs (schedule pending)
    refine ⟨commands ++ others, ?_⟩
    simp only [fill, hpending, harrived, run_append]

theorem begin?_runs {key : String} {found : Option α} {left : Cache τ α}
    (hbegin : ReadThrough.begin? c now key = .ok (found, left)) :
    left = c.run [(now, .get key)] := by
  rcases hget : c.get? now key with cause | ⟨entry, looked⟩
  · rw [ReadThrough.begin?, hget] at hbegin
    cases hbegin
  · rw [ReadThrough.begin?, hget] at hbegin
    obtain ⟨-, rfl⟩ := Prod.mk.inj (Except.ok.inj hbegin)
    simp only [run, step, hget]

theorem finish_runs (w : ReadThrough) (key : String) (payload : α) :
    (w.finish c now key payload).2.1 = c.run [(now, .set key payload w.ttl)] := by
  simp only [run, step_set_left]
  rfl

/-- First in, first out. After any commands at any clock readings the keys stand in the order in
which they came to be present, and each has been present without a break since then. Of a command's
work on the row, all is told by `Event.Queues`: a lookup of whatever kind takes out no key but its
own, and that only if it has expired; a store of a present key takes out expired keys in its sweep
at most; a store of an absent key puts it behind the others, and if the cache is full it gives up
the first key, expired or not; nothing else gives up a key. A key that has left the row comes in
behind the others, and no other comes in at all. Filling a cache ahead of use, in whatever order the
fetches come back, and calls through it do nothing to it but run commands. The clock may be one that
is read anew for a sweep (`Readings`). -/
theorem run_queue (policy : Policy) (commands : List (τ × Command α)) :
    let fresh : Cache τ α := { policy }
    InOrder (fresh.events commands) (fresh.run commands) ∧
    (∀ ev ∈ fresh.events commands, ev.Queues) ∧
    ∀ now : τ,
      (∀ schedule fetches, ∃ more,
        ((fresh.run commands).fill now schedule fetches).cache = fresh.run (commands ++ more)) ∧
      (∀ key found left, ReadThrough.begin? (fresh.run commands) now key = .ok (found, left) →
        left = fresh.run (commands ++ [(now, .get key)])) ∧
      ∀ (w : ReadThrough) key payload, (w.finish (fresh.run commands) now key payload).2.1 =
        fresh.run (commands ++ [(now, .set key payload w.ttl)]) := by
  intro fresh
  refine ⟨run_keeps_order policy commands, ?_, fun now => ⟨?_, ?_, ?_⟩⟩
  · intro ev hev
    obtain ⟨before, hcache⟩ := mem_events hev
    have hnodup : ev.cache.keys.Nodup := by
      rw [hcache]
      exact (run_keeps_order policy before).nodup
    exact step_queues hnodup ev.time ev.command
  · intro schedule fetches
    obtain ⟨more, hmore⟩ := (fresh.run commands).fill_runs now schedule fetches
    exact ⟨more, by rw [hmore, run_append]⟩
  · intro key found left hbegin
    rw [run_append, ← begin?_runs (fresh.run commands) now hbegin]
  · intro w key payload
    rw [run_append, finish_runs]

/-- Two keys of which the first has expired before long, and is then stored once more. -/
def storedTwice : List (Int × Command String) :=
  [(0, .set "a" "first" (.int 10)), (1, .set "b" "second" (.int 60))]

/-- To expire is not to leave. The key expires, no lookup has found it so, and it does not go behind
the others when it is stored again. -/
theorem run_storedTwice :
    let c := ({} : Cache Int String).run storedTwice
    let again : Event Int String := ⟨c, 20, .set "a" "third" (.int 60)⟩
    (∃ e, c.stored? "a" = some e ∧ e.isExpired 20 = .ok true) ∧
    again.Sets "a" "third" 60 ∧ again.left.keys.getLast? ≠ some "a" := by
  intro c again
  refine ⟨⟨⟨"a", "first", 0, 10, 0⟩, rfl, rfl⟩, ⟨⟨.int 60, rfl, rfl⟩, _, rfl⟩, ?_⟩
  decide

end IssueSearch.Cache
