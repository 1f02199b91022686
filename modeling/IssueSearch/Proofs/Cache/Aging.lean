import IssueSearch.Proofs.Cache.Books
import IssueSearch.Proofs.Cache.Passing
/-!
How long an expired entry may stay. On an exact clock every sweep is carried through, and the stores
since the last one stay below the interval. So among as many stores as the interval has there is a
sweep, and what had expired by then is gone. Storing into a cache that has grown past a threshold
sweeps at once.
-/
namespace IssueSearch.Cache

variable {τ α : Type}

/-- Stores a payload, and sweeps by another reading of the clock if the cache has grown past a
threshold. -/
def insertAndTrim [Timeline τ] (c : Cache τ α) (now later : τ) (key : String) (payload : α)
    (ttl : Json) (threshold : Int) : Except Error Unit × Cache τ α × List LogRecord :=
  let (stored, c, log) := c.insert now key payload ttl
  match stored with
  | .error cause => (.error cause, c, log)
  | .ok _ =>
      if threshold < (c.size : Int) then
        match c.sweep later with
        | .ok (_, c, swept) => (.ok (), c, log ++ swept)
        | .error cause => (.error (.overflow cause), c, log)
      else (.ok (), c, log)

section Trimming

variable [Timeline τ] {c left : Cache τ α} {now later : τ} {key : String} {payload : α} {ttl : Json}
  {threshold : Int} {log : List LogRecord}

/-- A sweep that is carried through leaves entries that have not expired. -/
theorem isExpired_of_unexpired {entries kept : List (Entry τ α)}
    (hkept : unexpired now entries = .ok kept) : ∀ e ∈ kept, e.isExpired now = .ok false := by
  rcases unexpired_cases now entries with ⟨⟨cause, herror⟩, -⟩ | ⟨hfilter, htold⟩
  · rw [hkept] at herror
    cases herror
  · obtain rfl := Except.ok.inj (hkept.symm.trans hfilter)
    intro e he
    obtain ⟨hmem, hflag⟩ := List.mem_filter.1 he
    rw [Entry.hasExpired, Entry.isExpired] at hflag
    rw [Entry.isExpired]
    cases hexpires : e.expiresAt with
    | error cause => exact absurd hexpires (htold e hmem cause)
    | ok deadline =>
        rw [hexpires] at hflag
        simpa [Except.map] using hflag

/-- To store so is to run a store, and a sweep behind it if the cache has grown past the
threshold. -/
theorem insertAndTrim_runs
    (htrim : c.insertAndTrim now later key payload ttl threshold = (.ok (), left, log)) :
    (left.size : Int) ≤ threshold ∧ left = c.run [(now, .set key payload ttl)] ∨
      (∀ e ∈ left.entries, e.isExpired later = .ok false) ∧
        left = c.run [(now, .set key payload ttl), (later, .sweep)] := by
  have hset := step_set_left c now key payload ttl
  simp only [insertAndTrim] at htrim
  rcases hinsert : c.insert now key payload ttl with ⟨_ | e, stored, stores⟩
  · rw [hinsert] at htrim
    cases htrim
  · simp only [hinsert] at htrim hset
    split at htrim
    · rcases hsweep : stored.sweep later with cause | ⟨count, swept, sweeps⟩
      · rw [hsweep] at htrim
        cases htrim
      · simp only [hsweep] at htrim
        obtain ⟨-, hleft⟩ := Prod.mk.inj htrim
        obtain ⟨rfl, -⟩ := Prod.mk.inj hleft
        refine .inr ⟨isExpired_of_unexpired (sweep_eq_ok hsweep), ?_⟩
        change swept = ((c.step now (.set key payload ttl)).2.1.step later .sweep).2.1
        rw [hset]
        simp only [step, hsweep]
    · rename_i hroom
      obtain ⟨-, hleft⟩ := Prod.mk.inj htrim
      obtain ⟨rfl, -⟩ := Prod.mk.inj hleft
      refine .inl ⟨not_lt.1 hroom, ?_⟩
      simp only [run, hset]

end Trimming

variable [LinearOrder τ] [ExactTimeline τ]

/-- What an event does to the ages of the entries: it sweeps, or it is counted towards the next
sweep if it stores. -/
inductive Event.Ages (ev : Event τ α) : Prop
  | swept (reset : ev.left.setsSinceSweep = 0)
      (unexpired : ∀ e ∈ ev.left.entries, ev.time < e.deadline) : Ages ev
  | counted
      (counts : ev.left.setsSinceSweep = ev.cache.setsSinceSweep + ev.reply.isStored.toNat)
      (undue : ev.reply.isStored = true →
        ev.left.setsSinceSweep < ev.cache.policy.sweepInterval) : Ages ev

variable {c : Cache τ α}

omit [LinearOrder τ] [ExactTimeline τ] in
theorem Looks.setsSinceSweep_eq [Timeline τ] {left : Cache τ α} {now : τ} {key : String}
    {found : Option (Entry τ α)} (hlooks : Looks c now key found left) :
    left.setsSinceSweep = c.setsSinceSweep := by
  cases hlooks <;> rfl

omit [LinearOrder τ] [ExactTimeline τ] in
theorem erase_setsSinceSweep (c : Cache τ α) (key : String) :
    (c.erase key).2.setsSinceSweep = c.setsSinceSweep := by
  unfold erase
  split <;> rfl

theorem mem_sweep_iff {entries : List (Entry τ α)} {now : τ} {e : Entry τ α} :
    e ∈ (entries.filter fun e => decide (now < e.deadline)) ↔ e ∈ entries ∧ now < e.deadline := by
  rw [List.mem_filter, decide_eq_true_iff]

theorem ages_set {now : τ} {key : String} {payload : α} {ttl : Json} :
    Event.Ages ⟨c, now, .set key payload ttl⟩ := by
  cases hseconds : c.policy.resolveTtl key ttl with
  | error cause =>
      have hstep : c.step now (.set key payload ttl) = _ := step_set_refused now hseconds
      refine .counted ?_ ?_
      · simp [Event.left, Event.reply, hstep, Reply.isStored]
      · simp [Event.reply, hstep, Reply.isStored]
  | ok seconds =>
      obtain ⟨entries, evictions, hplace, -⟩ := place_frame c ⟨key, payload, now, seconds, 0⟩
      rcases hplaced : c.place ⟨key, payload, now, seconds, 0⟩ with ⟨placed, log⟩
      rw [hplaced] at hplace
      obtain rfl : placed = _ := hplace
      by_cases hdue : c.policy.sweepInterval ≤ c.setsSinceSweep + 1
      · have hstep : (c.step now (.set key payload ttl)).2.1 = { c with
            entries := entries.filter fun e => decide (now < e.deadline)
            counters.evictions := evictions
            counters.sets := c.counters.sets + 1
            setsSinceSweep := 0 } := by
          rw [step_set_left, insert_left hseconds]
          simp only [store, hplaced, if_pos hdue, sweep, unexpired_eq, Except.map, afterSweep]
        refine .swept ?_ ?_
        · rw [Event.left, hstep]
        · intro e he
          rw [Event.left, hstep] at he
          exact (mem_sweep_iff.1 he).2
      · have hstep := step_set_unswept now hseconds hplaced hdue
        refine .counted ?_ ?_
        · simp [Event.left, Event.reply, hstep, Reply.isStored]
        · intro _
          rw [Event.left, hstep]
          exact Nat.lt_of_not_le hdue

theorem step_ages (c : Cache τ α) (now : τ) (command : Command α) :
    Event.Ages ⟨c, now, command⟩ := by
  have hcounted (hsame : (c.step now command).2.1.setsSinceSweep = c.setsSinceSweep)
      (hreply : (c.step now command).1.isStored = false) : Event.Ages ⟨c, now, command⟩ := by
    refine .counted ?_ fun hstored => ?_
    · rw [Event.left, Event.reply, hreply, hsame]
      rfl
    · rw [Event.reply, hreply] at hstored
      cases hstored
  cases command with
  | get key =>
      obtain ⟨found, left, hlive, hlooks⟩ := c.live_ok now key
      obtain ⟨entries, hits, misses, hcount, -⟩ := countLookup_frame found left
      have hstep := step_get_looked hlive
      apply hcounted
      · rw [hstep, hcount]
        exact hlooks.setsSinceSweep_eq
      · rw [hstep]
        rfl
  | set key payload ttl => exact ages_set
  | contains key =>
      obtain ⟨found, left, hlive, hlooks⟩ := c.live_ok now key
      have hstep := step_contains_looked hlive
      apply hcounted
      · rw [hstep]
        exact hlooks.setsSinceSweep_eq
      · rw [hstep]
        rfl
  | delete key => exact hcounted (erase_setsSinceSweep c key) rfl
  | deletePattern pattern => exact hcounted rfl rfl
  | invalidateDomain domain => exact hcounted rfl rfl
  | clear => exact hcounted rfl rfl
  | sweep =>
      have hleft : (c.step now .sweep).2.1 = { c with
          entries := c.entries.filter fun e => decide (now < e.deadline)
          setsSinceSweep := 0 } := by
        simp only [step, sweep, unexpired_eq, Except.map, afterSweep]
      refine .swept ?_ ?_
      · rw [Event.left, hleft]
      · intro e he
        rw [Event.left, hleft] at he
        exact (mem_sweep_iff.1 he).2

/-- What stands in the cache behind an event was stored by it, or stood there before, counted hits
aside. -/
theorem mem_left {ev : Event τ α} {e : Entry τ α} (hmem : e ∈ ev.left.entries) :
    (∃ payload seconds, ev.Sets e.key payload seconds) ∨
      ∃ old ∈ ev.cache.entries, e = { old with hits := e.hits } := by
  obtain ⟨c, now, command⟩ := ev
  by_cases hstore : command.isStore = false
  · exact .inr (step_keeps hstore e hmem)
  · obtain ⟨key, payload, ttl, rfl⟩ : ∃ key payload ttl, command = .set key payload ttl := by
      cases command with
      | set key payload ttl => exact ⟨key, payload, ttl, rfl⟩
      | _ => exact absurd rfl hstore
    cases hseconds : c.policy.resolveTtl key ttl with
    | error cause =>
        rw [Event.left, step_set_refused now hseconds] at hmem
        exact .inr ⟨e, hmem, rfl⟩
    | ok seconds =>
        obtain ⟨left, log, hstored, -⟩ := c.store_ok now key payload seconds
        rw [Event.left, step_set_left, insert_left hseconds] at hmem
        rcases mem_place ((c.store_sublist now key payload seconds).subset hmem) with
          rfl | ⟨hold, -⟩
        · refine .inl ⟨payload, seconds, ⟨ttl, rfl, hseconds⟩, ⟨key, payload, now, seconds, 0⟩, ?_⟩
          simp only [Event.reply, step, insert, hseconds, hstored, Except.mapError]
        · exact .inr ⟨e, hold, rfl⟩

omit [LinearOrder τ] [ExactTimeline τ] in
/-- Every event of a run is one of its commands, with the cache that those before it have left. -/
theorem split_of_mem_events [Timeline τ] {commands : List (τ × Command α)} {ev : Event τ α}
    (hev : ev ∈ c.events commands) : ∃ first rest,
      commands = first ++ (ev.time, ev.command) :: rest ∧ ev.cache = c.run first := by
  induction commands generalizing c with
  | nil => cases hev
  | cons command commands ih =>
      rcases List.mem_cons.1 hev with rfl | hlater
      · exact ⟨[], commands, rfl, rfl⟩
      · obtain ⟨first, rest, rfl, hcache⟩ := ih hlater
        exact ⟨command :: first, rest, rfl, hcache⟩

/-- The stores since the last sweep stay below the interval. -/
theorem run_undue (policy : Policy) (commands : List (τ × Command α)) :
    (run { policy } commands : Cache τ α).setsSinceSweep < policy.sweepInterval := by
  induction commands using List.reverseRecOn with
  | nil => exact policy.sweepInterval_pos
  | append_singleton commands command ih =>
      have hpolicy := (run_keeps_books (τ := τ) (α := α) policy commands).policy_eq
      rw [run_append]
      change (Event.left ⟨_, command.1, command.2⟩).setsSinceSweep < policy.sweepInterval
      cases step_ages (run { policy } commands) command.1 command.2 with
      | swept reset unexpired =>
          rw [reset]
          exact policy.sweepInterval_pos
      | counted counts undue =>
          cases hstored : Event.reply ⟨run { policy } commands, command.1, command.2⟩ |>.isStored with
          | false =>
              rw [counts, hstored]
              exact ih
          | true =>
              have hlt := undue hstored
              rw [hpolicy] at hlt
              exact hlt

/-- What has become of a cache by a run that begins at some moment: an entry that is still there has
not been stored anew, and what has not is of the time before the moment only if there was no sweep,
so that every store still counts. -/
structure Aged (c : Cache τ α) (now : τ) (more : List (τ × Command α)) : Prop where
  origin : ∀ e ∈ (c.run more).entries,
    (∃ ev ∈ c.events more, ∃ payload seconds, ev.Sets e.key payload seconds) ∨
      ∃ old ∈ c.entries, e = { old with hits := e.hits }
  age : (∀ e ∈ (c.run more).entries,
      (∃ ev ∈ c.events more, ∃ payload seconds, ev.Sets e.key payload seconds) ∨
        now < e.deadline) ∨
    (c.run more).setsSinceSweep =
      c.setsSinceSweep + (c.events more).countP (·.reply.isStored)

theorem run_aged (c : Cache τ α) {now : τ} {more : List (τ × Command α)}
    (hlater : ∀ command ∈ more, now ≤ command.1) : Aged c now more := by
  induction more using List.reverseRecOn with
  | nil => exact ⟨fun e he => .inr ⟨e, he, rfl⟩, .inr rfl⟩
  | append_singleton more command ih =>
      obtain ⟨horigin, hage⟩ := ih fun other hother => hlater other (List.mem_append_left _ hother)
      have hle : now ≤ command.1 := hlater command (by simp)
      have hages := step_ages (c.run more) command.1 command.2
      generalize hev : (⟨c.run more, command.1, command.2⟩ : Event τ α) = ev at hages
      have hleft : c.run (more ++ [command]) = ev.left := by
        rw [run_append, ← hev]
        rfl
      have hevents : c.events (more ++ [command]) = c.events more ++ [ev] := by
        rw [events_append, ← hev]
        rfl
      obtain ⟨hcache, htime⟩ : ev.cache = c.run more ∧ ev.time = command.1 := by
        rw [← hev]
        exact ⟨rfl, rfl⟩
      have hset {key : String}
          (hbefore : ∃ ev ∈ c.events more, ∃ payload seconds, ev.Sets key payload seconds) :
          ∃ other ∈ c.events more ++ [ev], ∃ payload seconds, other.Sets key payload seconds := by
        obtain ⟨other, hother, hsets⟩ := hbefore
        exact ⟨other, List.mem_append_left _ hother, hsets⟩
      rw [← hcache] at horigin hage
      constructor
      · rw [hleft, hevents]
        intro e he
        rcases mem_left he with hsets | ⟨old, hold, hsame⟩
        · exact .inl ⟨ev, by simp, hsets⟩
        · have hkey : e.key = old.key := by rw [hsame]
          rcases horigin old hold with hbefore | ⟨oldest, holdest, hsame'⟩
          · rw [hkey]
            exact .inl (hset hbefore)
          · refine .inr ⟨oldest, holdest, ?_⟩
            rw [hsame, hsame']
      · rw [hleft, hevents]
        cases hages with
        | swept reset unexpired =>
            refine .inl fun e he => .inr (lt_of_le_of_lt hle ?_)
            rw [← htime]
            exact unexpired e he
        | counted counts undue =>
            rcases hage with hfresh | hcount
            · refine .inl fun e he => ?_
              rcases mem_left he with hsets | ⟨old, hold, hsame⟩
              · exact .inl ⟨ev, by simp, hsets⟩
              · have hkey : e.key = old.key := by rw [hsame]
                have hdeadline : e.deadline = old.deadline := by rw [hsame]; rfl
                rw [hkey, hdeadline]
                exact (hfresh old hold).imp_left hset
            · refine .inr ?_
              rw [counts, hcount, List.countP_append, List.countP_singleton, Nat.add_assoc]
              cases ev.reply.isStored <;> rfl

/-- An event of a run stores into a key that is present. -/
def Overwrites (c : Cache τ α) (more : List (τ × Command α)) (key : String) : Prop :=
  ∃ ev ∈ c.events more, key ∈ ev.cache.keys ∧ ∃ payload seconds, ev.Sets key payload seconds

/-- An entry that has expired is gone by the time that as many stores have succeeded as the interval
has. If there is an entry under its key then, it was stored after the key had gone. -/
theorem run_expires {policy : Policy} {commands more : List (τ × Command α)} {e : Entry τ α}
    {now : τ} (hmem : e ∈ (run { policy } commands : Cache τ α).entries)
    (hexpired : e.deadline ≤ now) (hlater : ∀ command ∈ more, now ≤ command.1)
    (hcount : policy.sweepInterval ≤
      ((run { policy } commands).events more).countP (·.reply.isStored))
    (hkept : ¬ Overwrites (run { policy } commands) more e.key) :
    e.key ∉ ((run { policy } commands).run more).keys ∨ ∃ first time payload ttl rest,
      more = first ++ (time, .set e.key payload ttl) :: rest ∧
      e.key ∉ ((run { policy } commands).run first).keys := by
  have hnodup := (run_keeps_books policy commands).keys_nodup
  have hundue := run_undue policy (commands ++ more)
  rw [run_append] at hundue
  generalize run { policy } commands = c at *
  obtain ⟨horigin, hage⟩ := run_aged c hlater
  by_cases hset : ∃ ev ∈ c.events more, ∃ payload seconds, ev.Sets e.key payload seconds
  · obtain ⟨ev, hev, payload, seconds, hsets⟩ := hset
    obtain ⟨first, rest, hsplit, hcache⟩ := split_of_mem_events hev
    obtain ⟨ttl, hcommand, -⟩ := hsets.1
    refine .inr ⟨first, ev.time, payload, ttl, rest, ?_, ?_⟩
    · rw [hsplit, hcommand]
    · rw [← hcache]
      exact fun hpresent => hkept ⟨ev, hev, hpresent, payload, seconds, hsets⟩
  · refine .inl fun hpresent => ?_
    obtain ⟨last, hlast, hkey⟩ := List.mem_map.1 hpresent
    rw [← hkey] at hset
    rcases hage with hfresh | hcounted
    · obtain ⟨old, hold, hsame⟩ := (horigin last hlast).resolve_left hset
      have hold' : old = e := by
        refine List.inj_on_of_nodup_map hnodup hold hmem ?_
        rw [← hkey, hsame]
      have hearly := (hfresh last hlast).resolve_left hset
      have hdeadline : last.deadline = e.deadline := by rw [hsame, hold']; rfl
      rw [hdeadline] at hearly
      exact absurd hexpired (not_le.2 hearly)
    · omega

/-- On an exact clock a payload with a time to live is stored, and what is left is small or has not
expired. -/
theorem insertAndTrim_ok {key : String} {ttl : Json} {seconds : Int}
    (hseconds : c.policy.resolveTtl key ttl = .ok seconds) (now later : τ) (payload : α)
    (threshold : Int) : ∃ left log,
      c.insertAndTrim now later key payload ttl threshold = (.ok (), left, log) ∧
      ((left.size : Int) ≤ threshold ∨ ∀ e ∈ left.entries, later < e.deadline) := by
  obtain ⟨stored, log, hstore, -⟩ := c.store_ok now key payload seconds
  obtain ⟨left, log', htrim⟩ : ∃ left log',
      c.insertAndTrim now later key payload ttl threshold = (.ok (), left, log') := by
    simp only [insertAndTrim, insert, hseconds, hstore, Except.mapError, sweep, unexpired_eq,
      Except.map, afterSweep]
    split
    · exact ⟨_, _, rfl⟩
    · exact ⟨_, _, rfl⟩
  refine ⟨left, log', htrim, ?_⟩
  rcases insertAndTrim_runs htrim with ⟨hsmall, -⟩ | ⟨hliving, -⟩
  · exact .inl hsmall
  · refine .inr fun e he => ?_
    have hearly := hliving e he
    rw [Entry.isExpired_eq, Except.ok.injEq, decide_eq_false_iff_not, not_le] at hearly
    exact hearly

end IssueSearch.Cache
