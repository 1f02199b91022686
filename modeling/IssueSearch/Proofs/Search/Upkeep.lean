import IssueSearch.Proofs.Cache.Aging
import IssueSearch.Proofs.Search.Fetch
/-!
What searches do for the upkeep of their cache. A leader stores its result as `insertAndTrim` does,
so that what expires goes as fast as in any other run of the cache.
-/
namespace IssueSearch.Search

open Cache (Overwrites)

variable {τ α : Type}

/-- Keeping a result stores it and trims the cache. -/
theorem keep_eq_insertAndTrim (search : Search) (s : State) (key : String)
    (result : SearchResult) :
    ((search.keep s key result).1, (search.keep s key result).2.1.cache,
      (search.keep s key result).2.2) =
    s.cache.insertAndTrim s.now s.now key (.result result) search.settings.resultTtl
      search.settings.sweepThreshold := by
  simp only [keep, Cache.insertAndTrim]
  rcases s.cache.insert s.now key (.result result) search.settings.resultTtl with
    ⟨cause | stored, left, log⟩
  · rfl
  · dsimp only
    split
    · cases left.sweep s.now <;> rfl
    · rfl

/-- An answer that is taken in leaves the cache that storing it and trimming leaves. -/
theorem Fetches.cache_step {search : Search} {s : State} {event : Event} {id : CallId} {sent : Sent}
    {records : List Json} (hfetches : Fetches s event id sent records) :
    (search.step s event).1.cache =
      (s.cache.insertAndTrim s.now s.now sent.flight.key
        (.result (search.resultOf s.now sent records)) search.settings.resultTtl
        search.settings.sweepThreshold).2.1 := by
  obtain ⟨outcome, hstep, -⟩ : ∃ outcome, (search.step s event).1 = _ ∧ _ := hfetches.step_eq
  rw [hstep, State.cache_land, ← keep_eq_insertAndTrim]

variable [LinearOrder τ] [ExactTimeline τ]

/-- How long what has expired may stay. In a run on an exact clock, an entry that has expired and is
not overwritten is gone after as many more stores as the interval has, whatever else the cache is
told to do; what is under its key later was stored after it had gone. Storing a result is a store,
with a sweep behind it once the cache has grown past the threshold, so that the cache is left within
the threshold or free of what has expired. Answers to searches are stored in that way. -/
theorem run_upkeep (policy : Cache.Policy) (commands : List (τ × Cache.Command α)) :
    let fresh : Cache τ α := { policy }
    let c := fresh.run commands
    (∀ e ∈ c.entries, ∀ now, e.deadline ≤ now → ∀ more : List (τ × Cache.Command α),
      (∀ command ∈ more, now ≤ command.1) →
      policy.sweepInterval ≤ (c.events more).countP (·.reply.isStored) →
      ¬ Overwrites c more e.key →
      e.key ∉ (c.run more).keys ∨ ∃ first time payload ttl rest,
        more = first ++ (time, .set e.key payload ttl) :: rest ∧ e.key ∉ (c.run first).keys) ∧
    (∀ key ttl seconds, policy.resolveTtl key ttl = .ok seconds →
      ∀ now later payload threshold, ∃ left log,
        c.insertAndTrim now later key payload ttl threshold = (.ok (), left, log) ∧
        (left = fresh.run (commands ++ [(now, .set key payload ttl)]) ∨
          left = fresh.run (commands ++ [(now, .set key payload ttl), (later, .sweep)])) ∧
        ((left.size : Int) ≤ threshold ∨ ∀ e ∈ left.entries, later < e.deadline)) ∧
    ∀ (search : Search) (s : State) (event : Event) (id : CallId) (sent : Sent)
      (records : List Json), Fetches s event id sent records →
      let kept := s.cache.insertAndTrim s.now s.now sent.flight.key
        (.result (search.resultOf s.now sent records)) search.settings.resultTtl
        search.settings.sweepThreshold
      let left := (search.step s event).1.cache
      left = kept.2.1 ∧ (kept.1 = .ok () → (left.size : Int) ≤ search.settings.sweepThreshold ∨
        ∀ e ∈ left.entries, e.isExpired s.now = .ok false) := by
  intro fresh c
  refine ⟨?_, ?_, ?_⟩
  · intro e hmem now hexpired more hlater hcount hkept
    exact Cache.run_expires hmem hexpired hlater hcount hkept
  · intro key ttl seconds hseconds now later payload threshold
    have hpolicy : c.policy = policy := (Cache.run_keeps_books policy commands).policy_eq
    rw [← hpolicy] at hseconds
    obtain ⟨left, log, htrim, hleft⟩ :=
      Cache.insertAndTrim_ok hseconds now later payload threshold
    refine ⟨left, log, htrim, ?_, hleft⟩
    rw [Cache.run_append, Cache.run_append]
    exact (Cache.insertAndTrim_runs htrim).imp And.right And.right
  · intro search s event id sent records hfetches kept left
    have hcache : left = kept.2.1 := hfetches.cache_step
    refine ⟨hcache, fun hok => ?_⟩
    have htrim : kept = (.ok (), left, kept.2.2) := by rw [← hok, hcache]
    exact (Cache.insertAndTrim_runs htrim).imp And.left And.left

end IssueSearch.Search
