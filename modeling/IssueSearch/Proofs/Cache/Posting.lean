import IssueSearch.Proofs.Cache.Figures
/-!
Every command does what its figures say, whatever the clock reads. A lookup may drop the entry that
it finds, a store may give up an entry and sweep; whether they fail is seen from the entries that
they examine.
-/
namespace IssueSearch.Cache

variable {τ α : Type} [Timeline τ]

/-! ### What a command comes to -/

section Steps

variable {c : Cache τ α} {now : τ}

theorem step_get_failed {key : String} {cause : Overflow} (hlive : c.live now key = .error cause) :
    c.step now (.get key) = (.failed (.overflow cause), c, []) := by
  simp only [step, get?, hlive, Except.map]

theorem step_get_looked {key : String} {looked : Option (Entry τ α) × Cache τ α}
    (hlive : c.live now key = .ok looked) :
    c.step now (.get key) = (.found (countLookup looked).1, (countLookup looked).2, []) := by
  simp only [step, get?, hlive, Except.map]

theorem step_contains_failed {key : String} {cause : Overflow}
    (hlive : c.live now key = .error cause) :
    c.step now (.contains key) = (.failed (.overflow cause), c, []) := by
  simp only [step, contains, hlive, Except.map]

theorem step_contains_looked {key : String} {looked : Option (Entry τ α) × Cache τ α}
    (hlive : c.live now key = .ok looked) :
    c.step now (.contains key) = (.present looked.1.isSome, looked.2, []) := by
  simp only [step, contains, hlive, Except.map]

theorem step_sweep_failed {cause : Overflow} (hkept : unexpired now c.entries = .error cause) :
    c.step now .sweep = (.failed (.overflow cause), c, []) := by
  simp only [step, sweep, hkept, Except.map]

theorem step_sweep_swept
    (hkept : unexpired now c.entries = .ok (c.entries.filter fun e => !e.hasExpired now)) :
    ∃ count log, c.step now .sweep = (.removed count,
      { c with
        entries := c.entries.filter fun e => !e.hasExpired now
        setsSinceSweep := 0 }, log) := by
  simp only [step, sweep, hkept, Except.map, afterSweep]
  exact ⟨_, _, rfl⟩

theorem step_set_left (c : Cache τ α) (now : τ) (key : String) (payload : α) (ttl : Json) :
    (c.step now (.set key payload ttl)).2.1 = (c.insert now key payload ttl).2.1 := by
  simp only [step]
  rcases c.insert now key payload ttl with ⟨_ | _, left, log⟩
  · rfl
  · rfl

theorem insert_left {key : String} {ttl : Json} {seconds : Int}
    (hseconds : c.policy.resolveTtl key ttl = .ok seconds) (now : τ) (payload : α) :
    (c.insert now key payload ttl).2.1 = (c.store now key payload seconds).2.1 := by
  simp only [insert, hseconds]

end Steps

section Posts

variable {c : Cache τ α} (hnodup : c.keys.Nodup) (now : τ)

include hnodup in
theorem posts_get (key : String) : Event.Posts ⟨c, now, .get key⟩ := by
  rcases hlive : c.live now key with cause | ⟨found, left⟩
  · obtain ⟨e, hstored, huntold⟩ := live_eq_error hlive
    apply Event.posts_of_untold (step_get_failed hlive)
    · exact ⟨e, by simp [Event.examines, hstored], huntold⟩
    · intro hfails
      have hfigures : Event.figures ⟨c, now, .get key⟩ = { lookups := 1, failedLookups := 1 } := by
        simp [Event.figures, Event.expired, hfails]
      rw [hfigures]
      exact posted_lookup rfl rfl
  · obtain ⟨hframe, hsize, htold⟩ := (live_looks hlive).posts hnodup
    obtain ⟨entries, hits, misses, hcount, hlength, hsum⟩ := countLookup_frame found left
    have hstep : c.step now (.get key) = (.found (countLookup (found, left)).1,
        { c with entries, counters := { c.counters with hits, misses } }, []) := by
      rw [step_get_looked hlive, hcount, hframe]
    apply Event.posts_of_told hstep (by simp) htold
    intro hfails
    have hfigures : Event.figures ⟨c, now, .get key⟩ = {
        lookups := 1
        dropped := (c.stored? key).toList.countP (Entry.hasExpired now) } := by
      simp [Event.figures, Event.expired, hfails, Event.examines]
    rw [hfigures]
    apply posted_lookup
    · rw [hsum, hframe]
    · rw [hlength]
      exact hsize

include hnodup in
theorem posts_contains (key : String) : Event.Posts ⟨c, now, .contains key⟩ := by
  rcases hlive : c.live now key with cause | ⟨found, left⟩
  · obtain ⟨e, hstored, huntold⟩ := live_eq_error hlive
    apply Event.posts_of_untold (step_contains_failed hlive)
    · exact ⟨e, by simp [Event.examines, hstored], huntold⟩
    · intro hfails
      have hfigures : Event.figures ⟨c, now, .contains key⟩ = {} := by
        simp [Event.figures, Event.expired, hfails]
      rw [hfigures]
      exact .refl c
  · obtain ⟨hframe, hsize, htold⟩ := (live_looks hlive).posts hnodup
    apply Event.posts_of_told (step_contains_looked hlive) (by simp) htold
    intro hfails
    have hfigures : Event.figures ⟨c, now, .contains key⟩ =
        { dropped := (c.stored? key).toList.countP (Entry.hasExpired now) } := by
      simp [Event.figures, Event.expired, hfails, Event.examines]
    rw [hfigures, hframe]
    exact posted_lookup rfl hsize

include hnodup in
theorem posts_delete (key : String) : Event.Posts ⟨c, now, .delete key⟩ := by
  cases hstored : c.stored? key with
  | none =>
      have hstep : c.step now (.delete key) = (.removed 0, c, []) := by
        simp [step, erase, hstored]
      apply Event.posts_of_told hstep (by simp) (by simp [Event.examines])
      intro _
      have hfigures : Event.figures ⟨c, now, .delete key⟩ = {} := by
        simp [Event.figures, Event.reply, hstep, Reply.removedCount]
      rw [hfigures]
      exact .refl c
  | some e =>
      obtain ⟨hmem, rfl⟩ := stored?_some hstored
      have hstep : c.step now (.delete e.key) = (.removed 1, { c with
          entries := without e.key c.entries
          counters.deletes := c.counters.deletes + 1 }, []) := by
        simp [step, erase, hstored]
      apply Event.posts_of_told hstep (by simp) (by simp [Event.examines])
      intro _
      have hfigures : Event.figures ⟨c, now, .delete e.key⟩ = { deleted := 1 } := by
        simp [Event.figures, Event.reply, hstep, Reply.removedCount]
      rw [hfigures]
      exact posted_removal (length_without hnodup hmem)

theorem posts_deletePattern (pattern : String) : Event.Posts ⟨c, now, .deletePattern pattern⟩ :=
  Event.posts_of_told rfl (by simp) (by simp [Event.examines])
    fun _ => posted_eraseMatching c pattern

theorem posts_invalidateDomain (domain : String) :
    Event.Posts ⟨c, now, .invalidateDomain domain⟩ :=
  Event.posts_of_told rfl (by simp) (by simp [Event.examines])
    fun _ => posted_eraseMatching c (domain ++ ":")

theorem posts_clear : Event.Posts ⟨c, now, .clear⟩ := by
  apply Event.posts_of_told rfl (by simp) (by simp [Event.examines])
  intro _
  have hposted : Posted c { c with entries := [], counters.deletes := c.counters.deletes + 0 }
      { deleted := 0, cleared := c.size } := posted_removal (by simp)
  exact hposted

theorem posts_sweep : Event.Posts ⟨c, now, .sweep⟩ := by
  rcases unexpired_cases now c.entries with ⟨⟨cause, hkept⟩, huntold⟩ | ⟨hkept, htold⟩
  · apply Event.posts_of_untold (step_sweep_failed hkept) huntold
    intro hfails
    have hfigures : Event.figures ⟨c, now, .sweep⟩ = {} := by
      simp [Event.figures, Event.expired, hfails]
    rw [hfigures]
    exact .refl c
  · obtain ⟨count, log, hstep⟩ := step_sweep_swept hkept
    apply Event.posts_of_told hstep (by simp) htold
    intro hfails
    have hfigures : Event.figures ⟨c, now, .sweep⟩ =
        { swept := c.entries.countP (Entry.hasExpired now), sweeps := true } := by
      simp [Event.figures, Event.expired, hfails, Event.examines]
    rw [hfigures]
    exact posted_sweep (length_kept now c.entries)

theorem step_set_refused {key : String} {payload : α} {ttl : Json} {cause : InvalidTtl}
    (hrefused : c.policy.resolveTtl key ttl = .error cause) :
    c.step now (.set key payload ttl) = (.failed (.ttl cause), c, []) := by
  simp only [step, insert, hrefused]

theorem posts_set_refused {key : String} {payload : α} {ttl : Json} {cause : InvalidTtl}
    (hrefused : c.policy.resolveTtl key ttl = .error cause) :
    Event.Posts ⟨c, now, .set key payload ttl⟩ := by
  apply Event.posts_of_told (step_set_refused now hrefused) (by simp)
    (by simp [Event.examines, hrefused])
  intro _
  have hfigures : Event.figures ⟨c, now, .set key payload ttl⟩ = {} := by
    simp [Event.figures, hrefused]
  rw [hfigures]
  exact .refl c

section Store

variable {key : String} {payload : α} {ttl : Json} {seconds : Int}
  (hseconds : c.policy.resolveTtl key ttl = .ok seconds)
  {entries : List (Entry τ α)} {evictions : Nat} {log : List LogRecord}
  (hplaced : c.place ⟨key, payload, now, seconds, 0⟩ =
    ({ c with entries, counters.evictions := evictions }, log))
  (hlength : entries.length + evictions =
    c.size + c.counters.evictions + (c.stored? key).isNone.toNat)
  (hroom : c.size ≤ c.policy.maxKeys → entries.length ≤ c.policy.maxKeys)

include hseconds hplaced hlength hroom

omit hlength hroom in
theorem step_set_unswept (hdue : ¬ c.policy.sweepInterval ≤ c.setsSinceSweep + 1) :
    c.step now (.set key payload ttl) = (.stored ⟨key, payload, now, seconds, 0⟩,
      { c with
        entries
        counters := { c.counters with sets := c.counters.sets + 1, evictions }
        setsSinceSweep := c.setsSinceSweep + 1 }, log) := by
  simp only [step, insert, hseconds, store, hplaced, if_neg hdue, Except.mapError]

theorem posts_set_unswept (hdue : ¬ c.policy.sweepInterval ≤ c.setsSinceSweep + 1) :
    Event.Posts ⟨c, now, .set key payload ttl⟩ := by
  have hexamines : Event.examines ⟨c, now, .set key payload ttl⟩ = [] := by
    simp [Event.examines, hseconds, Event.due, hdue]
  apply Event.posts_of_told (step_set_unswept now hseconds hplaced hdue) (by simp)
  · rw [hexamines]
    exact fun e he => absurd he List.not_mem_nil
  · intro hfails
    have hfigures : Event.figures ⟨c, now, .set key payload ttl⟩ =
        { stores := 1, inserts := (c.stored? key).isNone.toNat } := by
      simp [Event.figures, hseconds, Event.expired, hfails, hexamines, Event.due, hdue]
    rw [hfigures]
    exact posted_store hlength hroom (fun h => absurd h Bool.false_ne_true)
      fun _ => .inl (Nat.lt_of_not_le hdue)

variable (hdue : c.policy.sweepInterval ≤ c.setsSinceSweep + 1)

include hdue

omit hlength hroom in
theorem step_set_swept
    (hkept : unexpired now entries = .ok (entries.filter fun e => !e.hasExpired now)) :
    ∃ log', c.step now (.set key payload ttl) = (.stored ⟨key, payload, now, seconds, 0⟩,
      { c with
        entries := entries.filter fun e => !e.hasExpired now
        counters := { c.counters with sets := c.counters.sets + 1, evictions }
        setsSinceSweep := 0 }, log') := by
  simp only [step, insert, hseconds, store, hplaced, if_pos hdue, sweep, hkept, Except.map,
    Except.mapError, afterSweep]
  exact ⟨_, rfl⟩

theorem posts_set_swept
    (hkept : unexpired now entries = .ok (entries.filter fun e => !e.hasExpired now))
    (htold : ∀ e ∈ entries, ∀ cause, e.expiresAt ≠ .error cause) :
    Event.Posts ⟨c, now, .set key payload ttl⟩ := by
  obtain ⟨log', hstep⟩ := step_set_swept now hseconds hplaced hdue hkept
  have hexamines : Event.examines ⟨c, now, .set key payload ttl⟩ = entries := by
    simp [Event.examines, hseconds, Event.due, hdue, hplaced]
  apply Event.posts_of_told hstep (by simp)
  · rw [hexamines]
    exact htold
  · intro hfails
    have hfigures : Event.figures ⟨c, now, .set key payload ttl⟩ = {
        stores := 1
        inserts := (c.stored? key).isNone.toNat
        swept := entries.countP (Entry.hasExpired now)
        sweeps := true } := by
      simp [Event.figures, hseconds, Event.expired, hfails, hexamines, Event.due, hdue]
    rw [hfigures]
    have hkeeps := length_kept now entries
    apply posted_store
    · omega
    · intro hle
      have hfull := hroom hle
      omega
    · exact fun _ => rfl
    · exact fun h => absurd h (Ne.symm Bool.false_ne_true)

omit hlength hroom in
theorem step_set_failed {cause : Overflow} (hkept : unexpired now entries = .error cause) :
    c.step now (.set key payload ttl) = (.failed (.overflow cause),
      { c with
        entries
        counters := { c.counters with sets := c.counters.sets + 1, evictions }
        setsSinceSweep := c.setsSinceSweep + 1 }, log) := by
  simp only [step, insert, hseconds, store, hplaced, if_pos hdue, sweep, hkept, Except.map,
    Except.mapError]

theorem posts_set_failed {cause : Overflow} (hkept : unexpired now entries = .error cause)
    (huntold : ∃ e ∈ entries, ∃ cause, e.expiresAt = .error cause) :
    Event.Posts ⟨c, now, .set key payload ttl⟩ := by
  have hexamines : Event.examines ⟨c, now, .set key payload ttl⟩ = entries := by
    simp [Event.examines, hseconds, Event.due, hdue, hplaced]
  apply Event.posts_of_untold (step_set_failed now hseconds hplaced hdue hkept)
  · rw [hexamines]
    exact huntold
  · intro hfails
    have hfigures : Event.figures ⟨c, now, .set key payload ttl⟩ = {
        stores := 1
        failedSweeps := 1
        inserts := (c.stored? key).isNone.toNat } := by
      simp [Event.figures, hseconds, Event.expired, hfails]
    rw [hfigures]
    exact posted_store hlength hroom (fun h => absurd h Bool.false_ne_true) fun _ => .inr rfl

end Store

theorem posts_set_stored {key : String} {payload : α} {ttl : Json} {seconds : Int}
    (hseconds : c.policy.resolveTtl key ttl = .ok seconds) :
    Event.Posts ⟨c, now, .set key payload ttl⟩ := by
  obtain ⟨entries, evictions, hplace, hlength, hroom⟩ :=
    place_frame c ⟨key, payload, now, seconds, 0⟩
  rcases hplaced : c.place ⟨key, payload, now, seconds, 0⟩ with ⟨placed, log⟩
  rw [hplaced] at hplace
  obtain rfl : placed = _ := hplace
  by_cases hdue : c.policy.sweepInterval ≤ c.setsSinceSweep + 1
  · rcases unexpired_cases now entries with ⟨⟨cause, hkept⟩, huntold⟩ | ⟨hkept, htold⟩
    · exact posts_set_failed now hseconds hplaced hlength hroom hdue hkept huntold
    · exact posts_set_swept now hseconds hplaced hlength hroom hdue hkept htold
  · exact posts_set_unswept now hseconds hplaced hlength hroom hdue

include hnodup in
/-- Every command does what its figures say. -/
theorem step_posts (command : Command α) : Event.Posts ⟨c, now, command⟩ := by
  cases command with
  | get key => exact posts_get hnodup now key
  | set key payload ttl =>
      cases hseconds : c.policy.resolveTtl key ttl with
      | error cause => exact posts_set_refused now hseconds
      | ok seconds => exact posts_set_stored now hseconds
  | contains key => exact posts_contains hnodup now key
  | delete key => exact posts_delete hnodup now key
  | deletePattern pattern => exact posts_deletePattern now pattern
  | invalidateDomain domain => exact posts_invalidateDomain now domain
  | clear => exact posts_clear now
  | sweep => exact posts_sweep now

end Posts

end IssueSearch.Cache
