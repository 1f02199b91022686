import IssueSearch.Proofs.Cache.Posting
import Mathlib.Data.List.Induction
/-!
The books of a cache balance. From an empty cache on, the counters and the size are what the history
of the commands says, the keys stay distinct, the times to live positive and the room enough, for
any clock readings. Only a clock that cannot tell a deadline makes a command fail, and what has
failed shows in the history too.
-/
namespace IssueSearch.Cache

variable {τ α : Type} [Timeline τ]

/-! ### Times to live are positive -/

omit [Timeline τ] in
theorem Policy.ttlFor_pos (p : Policy) (key : String) : 0 < p.ttlFor key := by
  rw [Policy.ttlFor]
  cases hlookup : p.domainTtls.lookup (domainOf key) with
  | none => exact p.defaultTtl_pos
  | some ttl =>
      obtain ⟨before, after, htable, -⟩ := List.lookup_eq_some_iff.1 hlookup
      apply p.domainTtls_pos (domainOf key, ttl)
      rw [htable]
      exact List.mem_append_right _ List.mem_cons_self

theorem Policy.resolveTtl_pos {p : Policy} {key : String} {ttl : Json} {seconds : Int}
    (hseconds : p.resolveTtl key ttl = .ok seconds) : 0 < seconds := by
  unfold Policy.resolveTtl at hseconds
  split at hseconds
  · rw [← Except.ok.inj hseconds]
    exact p.ttlFor_pos key
  · cases httl : ttlOf ttl with
    | error cause =>
        rw [httl] at hseconds
        cases hseconds
    | ok positive =>
        rw [httl] at hseconds
        rw [← Except.ok.inj hseconds]
        exact positive.property

omit [Timeline τ] in
theorem Keeps.ttl_pos {c c' : Cache τ α} (hkeeps : Keeps c c') (hpos : ∀ e ∈ c.entries, 0 < e.ttl) :
    ∀ e ∈ c'.entries, 0 < e.ttl := by
  intro e he
  obtain ⟨old, hold, hsame⟩ := hkeeps e he
  rw [hsame]
  exact hpos old hold

theorem step_ttl_pos {c : Cache τ α} (hpos : ∀ e ∈ c.entries, 0 < e.ttl) (now : τ)
    (command : Command α) : ∀ e ∈ (c.step now command).2.1.entries, 0 < e.ttl := by
  by_cases hstore : command.isStore = false
  · exact (step_keeps hstore).ttl_pos hpos
  · obtain ⟨key, payload, ttl, rfl⟩ : ∃ key payload ttl, command = .set key payload ttl := by
      cases command with
      | set key payload ttl => exact ⟨key, payload, ttl, rfl⟩
      | _ => exact absurd rfl hstore
    cases hseconds : c.policy.resolveTtl key ttl with
    | error cause =>
        rw [step_set_refused now hseconds]
        exact hpos
    | ok seconds =>
        intro e he
        rw [step_set_left, insert_left hseconds] at he
        rcases mem_place ((c.store_sublist now key payload seconds).subset he) with
          rfl | ⟨hold, -⟩
        · exact Policy.resolveTtl_pos hseconds
        · exact hpos e hold

/-! ### The books of a run -/

/-- A figure summed up over a history. -/
def total (figure : Figures → Nat) (history : List (Event τ α)) : Nat :=
  (history.map fun ev => figure ev.figures).sum

theorem total_concat (figure : Figures → Nat) (history : List (Event τ α)) (ev : Event τ α) :
    total figure (history ++ [ev]) = total figure history + figure ev.figures := by
  simp [total]

/-- How many stores have failed in their sweep since the last sweep that was carried through. -/
def failedSince (history : List (Event τ α)) : Nat :=
  history.foldl
    (fun failed ev => if ev.figures.sweeps = true then 0 else failed + ev.figures.failedSweeps) 0

theorem failedSince_concat (history : List (Event τ α)) (ev : Event τ α) :
    failedSince (history ++ [ev]) = if ev.figures.sweeps = true then 0
      else failedSince history + ev.figures.failedSweeps := by
  rw [failedSince, List.foldl_append]
  rfl

/-- What holds of a cache that started empty, by the history of its commands. -/
structure Books (policy : Policy) (history : List (Event τ α)) (c : Cache τ α) : Prop where
  policy_eq : c.policy = policy
  keys_nodup : c.keys.Nodup
  stored?_iff : ∀ key e, c.stored? key = some e ↔ e ∈ c.entries ∧ e.key = key
  ttl_pos : ∀ e ∈ c.entries, 0 < e.ttl
  size_le : c.size ≤ policy.maxKeys
  setsSinceSweep_lt : c.setsSinceSweep < policy.sweepInterval + failedSince history
  lookups : c.counters.hits + c.counters.misses + total Figures.failedLookups history =
    total Figures.lookups history
  sets : c.counters.sets = total Figures.stores history
  deletes : c.counters.deletes = total Figures.deleted history
  balance : total Figures.inserts history = c.size + c.counters.evictions + c.counters.deletes +
    total Figures.cleared history + total Figures.dropped history + total Figures.swept history

omit [Timeline τ] in
theorem stored?_eq_some_iff {c : Cache τ α} (hnodup : c.keys.Nodup) (key : String)
    (e : Entry τ α) : c.stored? key = some e ↔ e ∈ c.entries ∧ e.key = key := by
  constructor
  · exact stored?_some
  · rintro ⟨hmem, rfl⟩
    cases hstored : c.stored? e.key with
    | none => exact absurd (List.mem_map_of_mem hmem) (stored?_eq_none_iff.1 hstored)
    | some old =>
        obtain ⟨hold, hkey⟩ := stored?_some hstored
        exact congrArg some (List.inj_on_of_nodup_map hnodup hold hmem hkey)

theorem Books.fresh (policy : Policy) : Books policy [] ({ policy } : Cache τ α) where
  policy_eq := rfl
  keys_nodup := List.nodup_nil
  stored?_iff := stored?_eq_some_iff List.nodup_nil
  ttl_pos := by simp
  size_le := Nat.zero_le _
  setsSinceSweep_lt := policy.sweepInterval_pos
  lookups := rfl
  sets := rfl
  deletes := rfl
  balance := rfl

/-- Running a command keeps the books. -/
theorem Books.step {policy : Policy} {history : List (Event τ α)} {c : Cache τ α}
    (hbooks : Books policy history c) (now : τ) (command : Command α) :
    Books policy (history ++ [⟨c, now, command⟩]) (c.step now command).2.1 := by
  obtain ⟨rfl, hnodup, -, hpos, hsize, hdue, hlookups, hsets, hdeletes, hbalance⟩ := hbooks
  have hposted : Posted c (c.step now command).2.1 (Event.figures ⟨c, now, command⟩) :=
    (step_posts hnodup now command).posted
  have hkeys := step_nodup hnodup now command
  constructor
  · exact hposted.policy
  · exact hkeys
  · exact stored?_eq_some_iff hkeys
  · exact step_ttl_pos hpos now command
  · exact hposted.size_le hsize
  · rw [failedSince_concat]
    cases hsweeps : (Event.figures ⟨c, now, command⟩).sweeps with
    | true =>
        rw [hposted.swept hsweeps, if_pos rfl]
        exact c.policy.sweepInterval_pos
    | false =>
        have hunswept := hposted.unswept hsweeps
        rw [if_neg Bool.false_ne_true]
        omega
  · have hposted := hposted.lookups
    rw [total_concat, total_concat]
    omega
  · rw [total_concat, hposted.sets, hsets]
  · rw [total_concat, hposted.deletes, hdeletes]
  · have hdeleted := hposted.deletes
    have hposted := hposted.balance
    simp only [total_concat]
    omega

theorem run_keeps_books (policy : Policy) (commands : List (τ × Command α)) :
    Books policy (events { policy } commands) (run { policy } commands) := by
  induction commands using List.reverseRecOn with
  | nil => exact .fresh policy
  | append_singleton commands command ih =>
      rw [run_append, events_append]
      exact ih.step command.1 command.2

theorem mem_events {c : Cache τ α} {commands : List (τ × Command α)} {ev : Event τ α}
    (hev : ev ∈ c.events commands) : ∃ before, ev.cache = c.run before := by
  induction commands generalizing c with
  | nil => cases hev
  | cons command rest ih =>
      rcases List.mem_cons.1 hev with rfl | hlater
      · exact ⟨[], rfl⟩
      · obtain ⟨before, hbefore⟩ := ih hlater
        exact ⟨command :: before, hbefore⟩

/-- The readings of a clock that is read anew when a store comes to sweep. Other commands read it
once, so that both of their readings are the same. -/
structure Readings (τ : Type) where
  placed : τ
  swept : τ

/-- Times to live count from the first reading, and entries are swept by the second. -/
instance : Timeline (Readings τ) where
  after t seconds := (Timeline.after t.placed seconds).map fun deadline => ⟨deadline, deadline⟩
  reached now deadline := Timeline.reached now.swept deadline.swept

theorem isExpired_readings (e : Entry (Readings τ) α) (now : Readings τ) :
    e.isExpired now =
      (Timeline.after e.createdAt.placed e.ttl).map (Timeline.reached now.swept) := by
  rw [Entry.isExpired, Entry.expiresAt]
  simp only [Timeline.after]
  cases Timeline.after e.createdAt.placed e.ttl with
  | error cause => rfl
  | ok deadline => rfl

/-- The books of a cache balance after any commands at any clock readings. The keys are distinct,
the times to live positive and the room is enough. Every lookup that succeeds is a hit or a miss,
every store whose time to live is accepted is counted, and whatever was brought in is still there or
has been given up, deleted, cleared away or dropped as expired. The stores since the last sweep stay
below the interval, except for those whose sweep has failed. A command fails exactly if the clock
cannot tell a deadline that it asks for, and a store that is refused does nothing. The clock may be
one that is read anew for a sweep (`Readings`). -/
theorem run_books (policy : Policy) (commands : List (τ × Command α)) :
    let fresh : Cache τ α := { policy }
    Books policy (fresh.events commands) (fresh.run commands) ∧
    ∀ ev ∈ fresh.events commands,
      (ev.fails = true ↔ ∃ e ∈ ev.examines, ∃ cause, e.expiresAt = .error cause) ∧
      ∀ key payload ttl cause, ev.command = .set key payload ttl →
        policy.resolveTtl key ttl = .error cause →
        ev.reply = .failed (.ttl cause) ∧ ev.left = ev.cache := by
  intro fresh
  apply And.intro (run_keeps_books policy commands)
  intro ev hev
  obtain ⟨before, hcache⟩ := mem_events hev
  have hbooks : Books policy (fresh.events before) ev.cache := by
    rw [hcache]
    exact run_keeps_books policy before
  apply And.intro (step_posts hbooks.keys_nodup ev.time ev.command).fails_iff
  intro key payload ttl cause hset hrefused
  have hstep : ev.cache.step ev.time ev.command = (.failed (.ttl cause), ev.cache, []) := by
    rw [hset]
    apply step_set_refused
    rw [hbooks.policy_eq]
    exact hrefused
  rw [Event.reply, Event.left, hstep]
  exact ⟨rfl, rfl⟩

/-- More seconds than any double counts. -/
def endless : Int := Nat.pow 10 400

theorem after_endless (t : Float) : Timeline.after t endless = .error .integer := by
  have hbeyond : Decimal.beyondDoubles ≤ endless.natAbs := by decide +kernel
  simp only [Timeline.after, Decimal.nearest, if_pos hbeyond]
  rfl

/-- A store that is swept at once, and a lookup. -/
def storedEndlessly : List (Float × Command String) :=
  [(0.0, .set "issues:a" "first" (.int endless)), (0.0, .get "issues:a")]

/-- Whether a reply hands out the entry that was stored. -/
def Reply.isStored : Reply τ α → Bool
  | .stored _ => true
  | _ => false

/-- Doubles end. The lookup counts neither as a hit nor as a miss, the store is counted although it
fails, and the stores since the last sweep come to the interval. -/
theorem run_storedEndlessly :
    let fresh : Cache Float String := { policy := { sweepInterval := 1 } }
    let c := fresh.run storedEndlessly
    c.counters.hits + c.counters.misses ≠
      total Figures.lookups (fresh.events storedEndlessly) ∧
    c.counters.sets ≠ (fresh.events storedEndlessly).countP (·.reply.isStored) ∧
    ¬ c.setsSinceSweep < c.policy.sweepInterval := by
  intro fresh c
  have hseconds : fresh.policy.resolveTtl "issues:a" (.int endless) = .ok endless := by
    have hpos : 0 < endless := by decide +kernel
    simp only [Policy.resolveTtl, ttlOf, dif_pos hpos]
    rfl
  let e : Entry Float String := ⟨"issues:a", "first", 0.0, endless, 0⟩
  let stuffed : Cache Float String :=
    { fresh with entries := [e], counters.sets := 1, setsSinceSweep := 1 }
  have hexpired : e.isExpired 0.0 = .error .integer := by
    rw [Entry.isExpired, Entry.expiresAt, after_endless]
    rfl
  have hset : fresh.step 0.0 (.set "issues:a" "first" (.int endless)) =
      (.failed (.overflow .integer), stuffed, []) := by
    have hkept : unexpired 0.0 [e] = .error .integer := by
      rw [unexpired, hexpired]
      rfl
    exact step_set_failed 0.0 hseconds rfl (Nat.le_refl 1) hkept
  have hget : stuffed.step 0.0 (.get "issues:a") = (.failed (.overflow .integer), stuffed, []) := by
    have hlive : stuffed.live 0.0 "issues:a" = .error .integer := by
      have hstored : stuffed.stored? "issues:a" = some e := rfl
      rw [live, hstored]
      simp only [hexpired, Except.map]
    simp only [step, get?, hlive, Except.map]
  have hrun : c = stuffed := by
    simp only [c, storedEndlessly, run, hset, hget]
  have hevents : fresh.events storedEndlessly = [
      ⟨fresh, 0.0, .set "issues:a" "first" (.int endless)⟩,
      ⟨stuffed, 0.0, .get "issues:a"⟩] := by
    simp only [storedEndlessly, events, hset]
  rw [hrun, hevents]
  refine ⟨?_, ?_, ?_⟩
  · simp [total, Event.figures, stuffed, fresh]
  · simp [Event.reply, hset, hget, Reply.isStored, stuffed]
  · simp [stuffed, fresh]

end IssueSearch.Cache
