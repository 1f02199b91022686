import IssueSearch.Cache.WarmUp
import IssueSearch.Proofs.Cache.Living
import Mathlib.Data.List.Dedup
import Mathlib.Data.List.Perm.Subperm
/-!
Filling a cache ahead of use. As long as nothing expires meanwhile and there is room for all of the
keys, the fetches may come back in any order: a key that is live at the start is not fetched and not
touched, and any other holds the last answer that came back for it. Every answer is stored and
counted, so that the number of entries stored is that of the keys that came to be present only if no
two answers are for the same key.
-/
namespace IssueSearch.Cache

variable {τ α : Type} [Timeline τ]

/-- The entry of a key that has not expired. -/
def alive? (c : Cache τ α) (now : τ) (key : String) : Option (Entry τ α) :=
  (c.stored? key).filter fun e => !e.hasExpired now

/-- At all of these moments the clock tells the same of every entry. -/
structure Steady (moments : List τ) (c : Cache τ α) : Prop where
  nodup : c.keys.Nodup
  told : ∀ e ∈ c.entries, ∃ expired, ∀ now ∈ moments, e.isExpired now = .ok expired

theorem hasExpired_of_isExpired {e : Entry τ α} {now : τ} {expired : Bool}
    (hexpired : e.isExpired now = .ok expired) : e.hasExpired now = expired := by
  rw [Entry.hasExpired, hexpired]

namespace Steady

variable {moments : List τ} {c : Cache τ α} {now later : τ}

theorem hasExpired_eq (hsteady : c.Steady moments) (hnow : now ∈ moments) (hlater : later ∈ moments)
    {e : Entry τ α} (he : e ∈ c.entries) : e.hasExpired now = e.hasExpired later := by
  obtain ⟨expired, htold⟩ := hsteady.told e he
  rw [hasExpired_of_isExpired (htold now hnow), hasExpired_of_isExpired (htold later hlater)]

theorem alive?_eq (hsteady : c.Steady moments) (hnow : now ∈ moments) (hlater : later ∈ moments)
    (key : String) : c.alive? now key = c.alive? later key := by
  rw [alive?, alive?]
  cases hstored : c.stored? key with
  | none => rfl
  | some e =>
      rw [Option.filter_some, Option.filter_some,
        hsteady.hasExpired_eq hnow hlater (stored?_some hstored).1]

theorem of_subset (hsteady : c.Steady moments) {left : Cache τ α}
    (hsublist : left.entries.Sublist c.entries) : left.Steady moments where
  nodup := nodup_of_sublist hsteady.nodup hsublist
  told := fun e he => hsteady.told e (hsublist.subset he)

/-- To drop expired entries is to drop nothing that lives. -/
theorem alive?_filter (hsteady : c.Steady moments) (hnow : now ∈ moments)
    (hlater : later ∈ moments) {left : Cache τ α}
    (hleft : left.entries = c.entries.filter fun e => !e.hasExpired now) (key : String) :
    left.alive? later key = c.alive? later key := by
  have hstored : left.stored? key = c.alive? now key := by
    rw [stored?, hleft, find?_filter_of_nodup hsteady.nodup]
    rfl
  rw [alive?, hstored, hsteady.alive?_eq hnow hlater, alive?, Option.filter_filter]
  simp only [Bool.and_self]

/-- A lookup of whatever kind finds the entry that lives, and leaves all others that do. -/
theorem looks (hsteady : c.Steady moments) (hnow : now ∈ moments) {key : String}
    {found : Option (Entry τ α)} {left : Cache τ α} (hlooks : Looks c now key found left) :
    found = c.alive? now key ∧ left = { c with entries := left.entries } ∧
      left.Steady moments ∧ left.keys ⊆ c.keys ∧
      ∀ later ∈ moments, ∀ other, left.alive? later other = c.alive? later other := by
  have hsublist := hlooks.sublist
  refine ⟨?_, (hlooks.posts hsteady.nodup).1, hsteady.of_subset hsublist,
    (hsublist.map Entry.key).subset, ?_⟩
  · cases hlooks with
    | absent missing => rw [alive?, missing, Option.filter_none]
    | expired stored expired =>
        rw [alive?, stored, Option.filter_some, hasExpired_of_isExpired expired]
        rfl
    | live stored unexpired =>
        rw [alive?, stored, Option.filter_some, hasExpired_of_isExpired unexpired]
        rfl
  · intro later hlater other
    cases hlooks with
    | absent missing => rfl
    | live stored unexpired => rfl
    | @expired e stored expired =>
        have hleft : (without key c.entries).find? (·.key == other) =
            if other = key then none else c.stored? other := find?_without c.entries key other
        rw [alive?, stored?, hleft]
        by_cases hother : other = key
        · subst hother
          have hlate : e.hasExpired later = true := by
            rw [hsteady.hasExpired_eq hlater hnow (stored?_some stored).1,
              hasExpired_of_isExpired expired]
          rw [if_pos rfl, alive?, stored, Option.filter_none, Option.filter_some, hlate]
          rfl
        · rw [if_neg hother]
          rfl

end Steady

/-! ### The start -/

theorem missing_eq {moments : List τ} {start : τ} (hstart : start ∈ moments) {c : Cache τ α}
    (hsteady : c.Steady moments) (items : List (Fetch α)) :
    ∃ left, c.missing start items =
        (.ok (items.filter fun f => (c.alive? start f.key).isNone), left) ∧
      left = { c with entries := left.entries } ∧ left.Steady moments ∧ left.keys ⊆ c.keys ∧
      ∀ later ∈ moments, ∀ key, left.alive? later key = c.alive? later key := by
  induction items generalizing c with
  | nil => exact ⟨c, rfl, rfl, hsteady, List.Subset.refl _, fun _ _ _ => rfl⟩
  | cons f rest ih =>
      rcases hlive : c.live start f.key with cause | ⟨found, looked⟩
      · obtain ⟨e, hstored, cause, hcause⟩ := live_eq_error hlive
        obtain ⟨expired, htold⟩ := hsteady.told e (stored?_some hstored).1
        exact absurd hcause (expiresAt_ne_error (htold start hstart) cause)
      · obtain ⟨rfl, hframe, hlooked, hkeys, halive⟩ := hsteady.looks hstart (live_looks hlive)
        obtain ⟨left, hmissing, hrest, hleft, hfewer, hsame⟩ := ih hlooked
        refine ⟨left, ?_, ?_, hleft, List.Subset.trans hfewer hkeys, ?_⟩
        · simp only [missing, contains, hlive, Except.map, hmissing, halive start hstart]
          cases halone : (c.alive? start f.key) with
          | none => simp [halone]
          | some e => simp [halone]
        · rw [hrest, hframe]
        · intro later hlater key
          rw [hsame later hlater, halive later hlater]

/-! ### A store -/

omit [Timeline τ] in
/-- Where there is room for the key of an entry, none is given up for it. -/
theorem place_evictions_of_mem {c : Cache τ α} {names : List String} (new : Entry τ α)
    (hnodup : c.keys.Nodup) (hkeys : c.keys ⊆ names) (hnew : new.key ∈ names)
    (hroom : names.length ≤ c.policy.maxKeys) :
    (c.place new).1.counters.evictions = c.counters.evictions := by
  by_cases hpresent : (c.stored? new.key).isSome = true
  · rw [place, if_pos hpresent]
  · apply place_evictions
    rw [Option.not_isSome_iff_eq_none, stored?_eq_none_iff] at hpresent
    have hmore : (new.key :: c.keys).length ≤ names.length := by
      refine (List.Nodup.subperm (List.nodup_cons.2 ⟨hpresent, hnodup⟩) ?_).length_le
      exact List.cons_subset.2 ⟨hnew, hkeys⟩
    have hsize : c.keys.length = c.size := List.length_map _
    rw [List.length_cons, hsize] at hmore
    omega

omit [Timeline τ] in
theorem place_counters {c : Cache τ α} {new : Entry τ α}
    (hevictions : (c.place new).1.counters.evictions = c.counters.evictions) :
    (c.place new).1.counters = c.counters := by
  obtain ⟨entries, evictions, hframe, -⟩ := place_frame c new
  rw [hframe] at hevictions ⊢
  obtain rfl : evictions = c.counters.evictions := hevictions
  rfl

omit [Timeline τ] in
theorem place_keys_subset {c : Cache τ α} {names : List String} {new : Entry τ α}
    (hkeys : c.keys ⊆ names) (hnew : new.key ∈ names) : (c.place new).1.keys ⊆ names := by
  intro key hkey
  obtain ⟨e, he, rfl⟩ := List.mem_map.1 hkey
  rcases mem_place he with rfl | ⟨hold, -⟩
  · exact hnew
  · exact hkeys (List.mem_map_of_mem hold)

/-- A store whose entries can all be told succeeds, and changes what it has placed only if it sweeps
it. -/
theorem store_told (c : Cache τ α) (now : τ) (key : String) (payload : α) (ttl : Int)
    (htold : ∀ e ∈ (c.place ⟨key, payload, now, ttl, 0⟩).1.entries, ∀ cause,
      e.expiresAt ≠ .error cause) :
    ∃ left log, c.store now key payload ttl = (.ok ⟨key, payload, now, ttl, 0⟩, left, log) ∧
      left.policy = (c.place ⟨key, payload, now, ttl, 0⟩).1.policy ∧
      left.counters = { (c.place ⟨key, payload, now, ttl, 0⟩).1.counters with
        sets := (c.place ⟨key, payload, now, ttl, 0⟩).1.counters.sets + 1 } ∧
      (left.entries = (c.place ⟨key, payload, now, ttl, 0⟩).1.entries ∨
        left.entries = (c.place ⟨key, payload, now, ttl, 0⟩).1.entries.filter
          fun e => !e.hasExpired now) := by
  rcases unexpired_cases now (c.place ⟨key, payload, now, ttl, 0⟩).1.entries with
    ⟨-, e, he, cause, hcause⟩ | ⟨hkept, -⟩
  · exact absurd hcause (htold e he cause)
  · simp only [store, sweep, hkept, Except.map]
    split
    · exact ⟨_, _, rfl, rfl, rfl, .inr rfl⟩
    · exact ⟨_, _, rfl, rfl, rfl, .inl rfl⟩

/-- A store among entries that last, with room for its key, makes its own entry the one that lives
and leaves all others that do. -/
theorem Steady.store {moments : List τ} {c : Cache τ α} {now : τ} (hsteady : c.Steady moments)
    (hnow : now ∈ moments) {names : List String} (hkeys : c.keys ⊆ names)
    (hroom : names.length ≤ c.policy.maxKeys) {key : String} (hkey : key ∈ names) {payload : α}
    {ttl : Int} (hlasts : ∀ later ∈ moments,
      (⟨key, payload, now, ttl, 0⟩ : Entry τ α).isExpired later = .ok false) :
    ∃ left log, c.store now key payload ttl = (.ok ⟨key, payload, now, ttl, 0⟩, left, log) ∧
      left.policy = c.policy ∧
      left.counters = { c.counters with sets := c.counters.sets + 1 } ∧
      left.Steady moments ∧ left.keys ⊆ names ∧
      ∀ later ∈ moments, ∀ other, left.alive? later other =
        if other = key then some ⟨key, payload, now, ttl, 0⟩ else c.alive? later other := by
  let new : Entry τ α := ⟨key, payload, now, ttl, 0⟩
  have hevictions := place_evictions_of_mem new hsteady.nodup hkeys hkey hroom
  have hplaced : (c.place new).1.Steady moments := by
    refine ⟨place_nodup hsteady.nodup new, fun e he => ?_⟩
    rcases mem_place he with rfl | ⟨hold, -⟩
    · exact ⟨false, hlasts⟩
    · exact hsteady.told e hold
  have halive : ∀ later ∈ moments, ∀ other, (c.place new).1.alive? later other =
      if other = key then some new else c.alive? later other := by
    intro later hlater other
    rw [alive?, stored?_place hevictions]
    split
    · rw [Option.filter_some, hasExpired_of_isExpired (hlasts later hlater)]
      rfl
    · rfl
  obtain ⟨left, log, hstore, hpolicy, hcounters, hleft⟩ :=
    c.store_told now key payload ttl fun e he => by
      obtain ⟨expired, htold⟩ := hplaced.told e he
      exact expiresAt_ne_error (htold now hnow)
  rw [place_counters hevictions] at hcounters
  have hsublist : left.entries.Sublist (c.place new).1.entries := by
    rcases hleft with hsame | hswept
    · rw [hsame]
    · rw [hswept]
      exact List.filter_sublist
  refine ⟨left, log, hstore, hpolicy.trans (place_policy c new), hcounters,
    hplaced.of_subset hsublist, ?_, ?_⟩
  · exact List.Subset.trans (hsublist.map Entry.key).subset (place_keys_subset hkeys hkey)
  · intro later hlater other
    rw [← halive later hlater]
    rcases hleft with hsame | hswept
    · rw [alive?, alive?, stored?, stored?, hsame]
    · exact hplaced.alive?_filter hnow hlater hswept other

/-! ### What comes back -/

/-- The entry that a fetch brings in if it comes back at a moment. -/
def brought? (policy : Policy) (now : τ) (f : Fetch α) : Option (Entry τ α) :=
  match f.answer with
  | .ok payload => some ⟨f.key, payload, now, policy.ttlFor f.key, 0⟩
  | .error _ => none

/-- The entries that fetches bring in as they come back. -/
def brought (policy : Policy) (arrivals : List (τ × Fetch α)) : List (Entry τ α) :=
  arrivals.filterMap fun arrival => brought? policy arrival.1 arrival.2

/-- The last of them that is of a key. -/
def latest? (policy : Policy) (arrivals : List (τ × Fetch α)) (key : String) :
    Option (Entry τ α) :=
  (brought policy arrivals).reverse.find? (·.key == key)

/-- What comes back, without the failures. -/
def succeeded (arrivals : List (τ × Fetch α)) : List (τ × Fetch α) :=
  arrivals.filter fun arrival => arrival.2.answer.isOk

/-- A fetch that fails leaves the cache as it would be without it. -/
theorem arrive_succeeded (c : Cache τ α) (arrivals : List (τ × Fetch α)) :
    (c.arrive (succeeded arrivals)).2.1 = (c.arrive arrivals).2.1 := by
  induction arrivals generalizing c with
  | nil => rfl
  | cons arrival rest ih =>
      have hcons : ∀ others, (c.arrive (arrival :: others)).2.1 =
          ((c.settle arrival.1 arrival.2).2.1.arrive others).2.1 := fun _ => rfl
      rcases hanswer : arrival.2.answer with failure | payload
      · have hnothing : (c.settle arrival.1 arrival.2).2.1 = c := by rw [settle, hanswer]
        have hrest : succeeded (arrival :: rest) = succeeded rest := by
          rw [succeeded, List.filter_cons, hanswer]
          rfl
        rw [hrest, hcons, hnothing, ih]
      · have hrest : succeeded (arrival :: rest) = arrival :: succeeded rest := by
          rw [succeeded, List.filter_cons, hanswer]
          rfl
        rw [hrest, hcons, hcons, ih]

/-- A fetch that fails changes nothing; one that succeeds brings in its entry. -/
theorem Steady.settle {moments : List τ} {c : Cache τ α} {now : τ} (hsteady : c.Steady moments)
    (hnow : now ∈ moments) {names : List String} (hkeys : c.keys ⊆ names)
    (hroom : names.length ≤ c.policy.maxKeys) {f : Fetch α} (hkey : f.key ∈ names)
    (hlasts : ∀ e ∈ brought? c.policy now f, ∀ later ∈ moments, e.isExpired later = .ok false) :
    ∃ left log, c.settle now f = (.ok (brought? c.policy now f).toList.length, left, log) ∧
      left.policy = c.policy ∧
      left.counters = { c.counters with
        sets := c.counters.sets + (brought? c.policy now f).toList.length } ∧
      left.Steady moments ∧ left.keys ⊆ names ∧
      ∀ later ∈ moments, ∀ key, left.alive? later key =
        ((brought? c.policy now f).filter (·.key == key)).or (c.alive? later key) := by
  rcases hanswer : f.answer with failure | payload
  · have hnone : brought? c.policy now f = none := by simp only [brought?, hanswer]
    rw [hnone]
    refine ⟨c, (c.settle now f).2.2, ?_, rfl, rfl, hsteady, hkeys, fun _ _ _ => rfl⟩
    simp only [Cache.settle, hanswer]
    rfl
  · have hsome : brought? c.policy now f =
        some ⟨f.key, payload, now, c.policy.ttlFor f.key, 0⟩ := by simp only [brought?, hanswer]
    rw [hsome] at hlasts ⊢
    obtain ⟨left, log, hstore, hpolicy, hcounters, hleft, hsubset, halive⟩ :=
      hsteady.store hnow hkeys hroom hkey (hlasts _ rfl)
    refine ⟨left, log, ?_, hpolicy, hcounters, hleft, hsubset, ?_⟩
    · simp only [Cache.settle, hanswer, hstore]
      rfl
    · intro later hlater key
      rw [halive later hlater, Option.filter_some]
      by_cases hother : key = f.key
      · simp [hother]
      · simp [hother, Ne.symm hother]

omit [Timeline τ] in
theorem brought_cons (policy : Policy) (now : τ) (f : Fetch α) (rest : List (τ × Fetch α)) :
    brought policy ((now, f) :: rest) = (brought? policy now f).toList ++ brought policy rest := by
  rw [brought, List.filterMap_cons]
  cases brought? policy now f <;> rfl

omit [Timeline τ] in
theorem latest?_cons (policy : Policy) (now : τ) (f : Fetch α) (rest : List (τ × Fetch α))
    (key : String) : latest? policy ((now, f) :: rest) key =
      (latest? policy rest key).or ((brought? policy now f).filter (·.key == key)) := by
  rw [latest?, latest?, brought_cons, List.reverse_append, List.find?_append]
  cases hbrought : brought? policy now f with
  | none => rfl
  | some e =>
      rw [Option.toList_some, List.reverse_singleton, List.find?_singleton, Option.filter_some]

/-- What holds after fetches have come back, whatever their order. -/
theorem arrive_eq {moments : List τ} {names : List String} {policy : Policy}
    {arrivals : List (τ × Fetch α)} {c : Cache τ α} (hpolicy : c.policy = policy)
    (hsteady : c.Steady moments) (hkeys : c.keys ⊆ names) (hroom : names.length ≤ policy.maxKeys)
    (hmoments : ∀ arrival ∈ arrivals, arrival.1 ∈ moments)
    (hnames : ∀ arrival ∈ arrivals, arrival.2.key ∈ names)
    (hlasts : ∀ e ∈ brought policy arrivals, ∀ later ∈ moments, e.isExpired later = .ok false) :
    ∃ left log, c.arrive arrivals = (.ok (brought policy arrivals).length, left, log) ∧
      left.counters = { c.counters with
        sets := c.counters.sets + (brought policy arrivals).length } ∧
      left.Steady moments ∧
      ∀ later ∈ moments, ∀ key, left.alive? later key =
        (latest? policy arrivals key).or (c.alive? later key) := by
  induction arrivals generalizing c with
  | nil => exact ⟨c, [], rfl, rfl, hsteady, fun _ _ _ => rfl⟩
  | cons arrival rest ih =>
      rcases arrival with ⟨now, f⟩
      subst hpolicy
      rw [brought_cons] at hlasts
      obtain ⟨hnow, hlater⟩ := List.forall_mem_cons.1 hmoments
      obtain ⟨hname, hnames⟩ := List.forall_mem_cons.1 hnames
      obtain ⟨left, log, hone, hpolicy, hcounters, hleft, hsubset, halive⟩ :=
        hsteady.settle hnow hkeys hroom hname fun e he =>
          hlasts e (List.mem_append_left _ (Option.mem_toList.2 he))
      obtain ⟨last, logs, hrest, hsets, hlast, hsame⟩ := ih hpolicy hleft hsubset hlater hnames
        fun e he => hlasts e (List.mem_append_right _ he)
      refine ⟨last, log ++ logs, ?_, ?_, hlast, ?_⟩
      · simp only [arrive, hone, hrest, brought_cons, List.length_append]
        rfl
      · rw [hsets, hcounters, brought_cons, List.length_append, Nat.add_assoc]
      · intro later hmoment key
        rw [hsame later hmoment, halive later hmoment, latest?_cons, Option.or_assoc]

omit [Timeline τ] in
theorem mem_brought {policy : Policy} {arrivals : List (τ × Fetch α)} {e : Entry τ α} :
    e ∈ brought policy arrivals ↔
      ∃ arrival ∈ arrivals, brought? policy arrival.1 arrival.2 = some e := List.mem_filterMap

omit [Timeline τ] in
theorem key_of_brought? {policy : Policy} {now : τ} {f : Fetch α} {e : Entry τ α}
    (hbrought : brought? policy now f = some e) : e.key = f.key := by
  unfold brought? at hbrought
  split at hbrought
  · rw [← Option.some.inj hbrought]
  · cases hbrought

omit [Timeline τ] in
theorem latest?_isSome_iff {policy : Policy} {arrivals : List (τ × Fetch α)} {key : String} :
    (latest? policy arrivals key).isSome = true ↔
      key ∈ (brought policy arrivals).map Entry.key := by
  rw [latest?, List.find?_isSome, List.mem_map]
  simp only [List.mem_reverse, beq_iff_eq]

/-! ### The whole -/

/-- The fetches of keys that do not live. -/
def pending (c : Cache τ α) (start : τ) (items : List (Fetch α)) : List (Fetch α) :=
  items.filter fun f => (c.alive? start f.key).isNone

/-- The keys that live in a cache at a moment and did not live in another at the start. -/
def newcomers (c : Cache τ α) (start : τ) (left : Cache τ α) (now : τ) : List String :=
  left.keys.filter fun key => (left.alive? now key).isSome && (c.alive? start key).isNone

/-- Nothing expires between these moments, also of what comes back, and there is room for all of the
keys. -/
structure Ready (moments : List τ) (items : List (Fetch α)) (c : Cache τ α) : Prop where
  steady : c.Steady moments
  lasts : ∀ f ∈ items, ∀ now ∈ moments, ∀ e ∈ brought? c.policy now f, ∀ later ∈ moments,
    e.isExpired later = .ok false
  room : (c.keys ++ items.map Fetch.key).dedup.length ≤ c.policy.maxKeys

/-- What filling a cache comes to when the fetches have come back. -/
structure Filled (c : Cache τ α) (start : τ) (items : List (Fetch α))
    (arrivals : List (τ × Fetch α)) (w : WarmUp τ α) : Prop where
  /-- The keys that live at the start are not fetched, all others are. -/
  fetched : w.fetched = (c.pending start items).map Fetch.key
  /-- The entry of a key that lives at the start is left as it is. -/
  spared : ∀ key e, c.alive? start key = some e → w.cache.stored? key = some e
  /-- Any other key holds the last answer that came back for it. -/
  answered : ∀ key e, latest? c.policy arrivals key = some e → w.cache.stored? key = some e
  /-- What fails brings no key in. -/
  unanswered : ∀ key, c.alive? start key = none → latest? c.policy arrivals key = none →
    ∀ now ∈ start :: arrivals.map Prod.fst, w.cache.alive? now key = none
  /-- And it leaves all else as it would be without it. -/
  failed : w.cache = (c.fill start (fun _ => succeeded arrivals) items).cache
  nodup : w.cache.keys.Nodup
  /-- Every answer is stored and counted, and nothing else is. -/
  stored : w.stored = .ok (brought c.policy arrivals).length
  counters : w.cache.counters =
    { c.counters with sets := c.counters.sets + (brought c.policy arrivals).length }
  /-- The keys that have come to be present are those of the answers, each of them once. -/
  present : ∀ now ∈ start :: arrivals.map Prod.fst, (c.newcomers start w.cache now).Perm
    ((brought c.policy arrivals).map Entry.key).dedup
  /-- Their number is told exactly if no key has two answers. -/
  stored_iff : ∀ now ∈ start :: arrivals.map Prod.fst,
    (w.stored = .ok (c.newcomers start w.cache now).length ↔
      ((brought c.policy arrivals).map Entry.key).Nodup)

theorem stored?_of_alive? {c : Cache τ α} {now : τ} {key : String} {e : Entry τ α}
    (halive : c.alive? now key = some e) : c.stored? key = some e :=
  (Option.filter_eq_some_iff.1 halive).1

/-- No answer comes back for a key that lives at the start. -/
theorem latest?_of_alive? {c : Cache τ α} {start : τ} {items : List (Fetch α)}
    {arrivals : List (τ × Fetch α)} (hperm : (arrivals.map Prod.snd).Perm (c.pending start items))
    {key : String} {e : Entry τ α} (halive : c.alive? start key = some e) :
    latest? c.policy arrivals key = none := by
  rw [← Option.not_isSome_iff_eq_none, latest?_isSome_iff]
  intro hbrought
  obtain ⟨new, hnew, rfl⟩ := List.mem_map.1 hbrought
  obtain ⟨arrival, harrival, hbrings⟩ := mem_brought.1 hnew
  have hpending := hperm.subset (List.mem_map_of_mem harrival)
  have habsent := (List.mem_filter.1 hpending).2
  rw [← key_of_brought? hbrings, halive] at habsent
  cases habsent

/-- Where the answers and what lived at the start are all that lives, the newcomers are the keys
that have answers. -/
theorem mem_newcomers_iff {c left : Cache τ α} {start now : τ} {items : List (Fetch α)}
    {arrivals : List (τ × Fetch α)} (hperm : (arrivals.map Prod.snd).Perm (c.pending start items))
    (halive : ∀ key, left.alive? now key =
      (latest? c.policy arrivals key).or (c.alive? start key)) {key : String} :
    key ∈ c.newcomers start left now ↔ (latest? c.policy arrivals key).isSome = true := by
  rw [newcomers, List.mem_filter, halive, Bool.and_eq_true]
  constructor
  · rintro ⟨-, hlives, hdead⟩
    rw [Option.isNone_iff_eq_none.1 hdead, Option.or_none] at hlives
    exact hlives
  · intro hlatest
    obtain ⟨e, he⟩ := Option.isSome_iff_exists.1 hlatest
    have hleft : left.alive? now key = some e := by rw [halive, he, Option.some_or]
    have hmem : key ∈ left.keys := by
      obtain ⟨hstored, rfl⟩ := stored?_some (stored?_of_alive? hleft)
      exact List.mem_map_of_mem hstored
    refine ⟨hmem, by rw [he, Option.some_or]; rfl, ?_⟩
    cases hlives : c.alive? start key with
    | none => rfl
    | some old =>
        rw [latest?_of_alive? hperm hlives] at he
        cases he

theorem fill_succeeded {moments : List τ} {start : τ} (hstart : start ∈ moments) {c : Cache τ α}
    (hsteady : c.Steady moments) (items : List (Fetch α))
    (schedule : List (Fetch α) → List (τ × Fetch α)) :
    (c.fill start (fun _ => succeeded (schedule (c.pending start items))) items).cache =
      (c.fill start schedule items).cache := by
  obtain ⟨looked, hmissing, -⟩ := missing_eq hstart hsteady items
  have hmissing : c.missing start items = (.ok (c.pending start items), looked) := hmissing
  simp only [fill, hmissing, arrive_succeeded]

section Fill

variable {c : Cache τ α} {start : τ} {items : List (Fetch α)}
  {schedule : List (Fetch α) → List (τ × Fetch α)}
  (hready : c.Ready (start :: (schedule (c.pending start items)).map Prod.fst) items)
  (hschedule : ((schedule (c.pending start items)).map Prod.snd).Perm (c.pending start items))

include hready hschedule

theorem fill_eq : ∃ left log, c.fill start schedule items =
      { stored := .ok (brought c.policy (schedule (c.pending start items))).length
        fetched := (c.pending start items).map Fetch.key
        cache := left
        log } ∧
    left.counters = { c.counters with
      sets := c.counters.sets + (brought c.policy (schedule (c.pending start items))).length } ∧
    left.Steady (start :: (schedule (c.pending start items)).map Prod.fst) ∧
    ∀ later ∈ start :: (schedule (c.pending start items)).map Prod.fst, ∀ key,
      left.alive? later key =
        (latest? c.policy (schedule (c.pending start items)) key).or (c.alive? start key) := by
  obtain ⟨hsteady, hlasts, hroom⟩ := hready
  have hstart := List.mem_cons_self (a := start)
    (l := (schedule (c.pending start items)).map Prod.fst)
  obtain ⟨looked, hmissing, hframe, hlooked, hfewer, hsame⟩ := missing_eq hstart hsteady items
  have hmissing : c.missing start items = (.ok (c.pending start items), looked) := hmissing
  have hpolicy : looked.policy = c.policy := by rw [hframe]
  have hcounters : looked.counters = c.counters := by rw [hframe]
  have hkeys : looked.keys ⊆ (c.keys ++ items.map Fetch.key).dedup := fun key hkey =>
    List.mem_dedup.2 (List.mem_append_left _ (hfewer hkey))
  have hitem : ∀ arrival ∈ schedule (c.pending start items), arrival.2 ∈ items :=
    fun arrival harrival =>
      List.mem_of_mem_filter (hschedule.subset (List.mem_map_of_mem harrival))
  have hmoment : ∀ arrival ∈ schedule (c.pending start items),
      arrival.1 ∈ start :: (schedule (c.pending start items)).map Prod.fst :=
    fun arrival harrival => List.mem_cons_of_mem _ (List.mem_map_of_mem harrival)
  have hname : ∀ arrival ∈ schedule (c.pending start items),
      arrival.2.key ∈ (c.keys ++ items.map Fetch.key).dedup := fun arrival harrival =>
    List.mem_dedup.2 (List.mem_append_right _ (List.mem_map_of_mem (hitem arrival harrival)))
  have hlong : ∀ e ∈ brought c.policy (schedule (c.pending start items)),
      ∀ later ∈ start :: (schedule (c.pending start items)).map Prod.fst,
        e.isExpired later = .ok false := by
    intro e he
    obtain ⟨arrival, harrival, hbrings⟩ := mem_brought.1 he
    exact hlasts arrival.2 (hitem arrival harrival) arrival.1 (hmoment arrival harrival) e hbrings
  obtain ⟨left, log, harrive, hsets, hleft, halive⟩ :=
    arrive_eq hpolicy hlooked hkeys hroom hmoment hname hlong
  refine ⟨left, log, ?_, by rw [hsets, hcounters], hleft, ?_⟩
  · simp only [fill, hmissing, harrive]
  · intro later hlater key
    rw [halive later hlater, hsame later hlater, hsteady.alive?_eq hlater hstart]

/-- Filling a cache with any fetches, repeated keys among them, that come back in any order and at
any moments. Nothing expires meanwhile, and there is room for all of the keys. -/
theorem fill_filled :
    c.Filled start items (schedule (c.pending start items)) (c.fill start schedule items) := by
  obtain ⟨left, log, hfill, hcounters, hleft, halive⟩ := fill_eq hready hschedule
  have hstart := List.mem_cons_self (a := start)
    (l := (schedule (c.pending start items)).map Prod.fst)
  have hfailed := fill_succeeded hstart hready.steady items schedule
  rw [hfill] at hfailed ⊢
  generalize schedule (c.pending start items) = arrivals at *
  have hpresent : ∀ now ∈ start :: arrivals.map Prod.fst, (c.newcomers start left now).Perm
      ((brought c.policy arrivals).map Entry.key).dedup := by
    intro now hnow
    have hnodup : (c.newcomers start left now).Nodup := hleft.nodup.filter _
    refine (List.perm_ext_iff_of_nodup hnodup (List.nodup_dedup _)).2 fun key => ?_
    rw [List.mem_dedup, ← latest?_isSome_iff]
    exact mem_newcomers_iff hschedule (halive now hnow)
  constructor
  · rfl
  · intro key e hlives
    have hnone := latest?_of_alive? hschedule hlives
    have hsame := halive start hstart key
    rw [hnone, Option.none_or, hlives] at hsame
    exact stored?_of_alive? hsame
  · intro key e hlatest
    have hsame := halive start hstart key
    rw [hlatest, Option.some_or] at hsame
    exact stored?_of_alive? hsame
  · intro key hdead hnone now hnow
    rw [halive now hnow, hnone, hdead]
    rfl
  · exact hfailed.symm
  · exact hleft.nodup
  · rfl
  · exact hcounters
  · exact hpresent
  · intro now hnow
    rw [Except.ok.injEq, (hpresent now hnow).length_eq, ← List.length_map Entry.key, eq_comm,
      (List.dedup_sublist _).length_eq, List.dedup_eq_self]

end Fill

/-- A cache in which one key lives. -/
def partlyFull (policy : Policy) : Cache Int String where
  policy
  entries := [⟨"a", "kept", 0, 60, 0⟩]

/-- Fetches of that key, of another one twice, and of a third in vain. -/
def wanted : List (Fetch String) := [
  { key := "a", answer := .ok "anew" }, { key := "b", answer := .ok "first" },
  { key := "b", answer := .ok "second" }, { key := "d", answer := .error ⟨.timeout, "late"⟩ }]

/-- The last to start comes back first, all at one moment. -/
def backwards (pending : List (Fetch String)) : List (Int × Fetch String) :=
  pending.reverse.map fun f => (2, f)

/-- Both answers for one key are stored and counted, and the one that came back last is kept. -/
theorem fill_filled_backwards :
    let c := partlyFull {}
    c.Ready (1 :: (backwards (c.pending 1 wanted)).map Prod.fst) wanted ∧
    ((backwards (c.pending 1 wanted)).map Prod.snd).Perm (c.pending 1 wanted) ∧
    c.Filled 1 wanted (backwards (c.pending 1 wanted)) (c.fill 1 backwards wanted) := by
  intro c
  have hready : c.Ready (1 :: (backwards (c.pending 1 wanted)).map Prod.fst) wanted := by
    refine ⟨⟨by decide, ?_⟩, ?_, by decide⟩
    · decide
    · decide
  have hschedule : ((backwards (c.pending 1 wanted)).map Prod.snd).Perm (c.pending 1 wanted) := by
    rw [backwards, List.map_map]
    exact (List.map_id _).symm ▸ List.reverse_perm _
  exact ⟨hready, hschedule, fill_filled hready hschedule⟩

end IssueSearch.Cache
