import IssueSearch.Proofs.Cache.Books
import IssueSearch.Proofs.Search.Coalescing
import IssueSearch.Proofs.Search.Hits
import IssueSearch.Proofs.Search.Repetition
/-!
Calls that fail. A call that no other call comes between and that ends without a result, whether it
is rejected, cannot be compiled, has its backend fail or is cancelled, leaves the flights and the
entries of the cache as they were, but for an entry under its own key that was dead when it looked.
Made once more, it does what it would have done the first time.

There is one way in which a failed call leaves something behind. A sweep that follows the store of
its answer fails if the clock cannot tell when some entry expires, and the answer stays stored.
-/
namespace IssueSearch.Search

variable (search : Search)

/-- The lookup of a call that is alone clears an entry away. -/
def ClearsAway (s : State) (input : Input) (happenings : List Happening) (r : Request)
    (e : Cache.Entry Float Stored) : Prop :=
  ∃ time, search.Begins s input happenings time ∧ s.cache.stored? (search.key r) = some e ∧
    Dead e time

/-- A call does in one state what it does in another. -/
structure Repeats (s s' : State) (input : Input) (happenings : List Happening) : Prop where
  /-- It comes to the same phase, and ends with the same outcome. -/
  call : (search.attempt s input happenings).calls[s.calls.length]? =
    (search.attempt s' input happenings).calls[s'.calls.length]?
  /-- It starts the same backend calls. -/
  started : search.started s.calls.length s (alone s input happenings) =
    search.started s'.calls.length s' (alone s' input happenings)
  /-- The same keys are in flight. -/
  keys : (search.attempt s input happenings).inflight.map Prod.fst =
    (search.attempt s' input happenings).inflight.map Prod.fst
  /-- The caches are alike but for their counters, and for an entry that the call is yet to clear
  away if it has not looked its key up. -/
  cache : (search.attempt s input happenings).cache.bare =
      (search.attempt s' input happenings).cache.bare ∨
    ∃ r, search.requestOf input = .ok r ∧
      Cleared (search.key r) (search.attempt s' input happenings).now
        (search.attempt s input happenings).cache (search.attempt s' input happenings).cache ∧
      (search.attempt s' input happenings).Unlooked s'.calls.length

/-- What is promised of a call that is alone and ends without a result. -/
structure FailsCleanly (s : State) (input : Input) (happenings : List Happening) : Prop where
  /-- What is in flight is what was. -/
  flights : (search.attempt s input happenings).inflight = s.inflight
  /-- Unless a sweep behind its store has failed, the entries are those before, in their order, as
  long as the lookup clears none away. -/
  kept : ∀ r, search.requestOf input = .ok r →
    ¬ search.Stumbles s input happenings (search.attempt s input happenings).cache →
    (∀ e, ¬ search.ClearsAway s input happenings r e) →
      (search.attempt s input happenings).cache.entries = s.cache.entries
  /-- An entry that the lookup clears away is gone, and no other. -/
  cleared : ∀ r e, search.requestOf input = .ok r →
    ¬ search.Stumbles s input happenings (search.attempt s input happenings).cache →
    search.ClearsAway s input happenings r e →
      (search.attempt s input happenings).cache.entries =
        Cache.without (search.key r) s.cache.entries
  /-- A sweep fails only in a call that has been answered, and ends it with its own error. -/
  stumbled : ∀ cache, search.Stumbles s input happenings cache → ∃ cause,
    (search.attempt s input happenings).outcome? s.calls.length =
      some (.raised (.cache (.overflow cause)))
  /-- A request that is rejected or cannot be compiled does not reach the backend. -/
  unsent : ∀ error, (search.attempt s input happenings).outcome? s.calls.length =
      some (.raised error) →
    (∃ errors warnings, error = .rejected errors warnings) ∨
      (∃ cause, error = .uncompilable cause) →
      search.started s.calls.length s (alone s input happenings) = []
  /-- A failure of the backend reaches the caller as it is, after one backend call. -/
  passed : ∀ earlier later failure led, happenings = earlier ++ .reply (.error failure) :: later →
    (search.attempt s input earlier).calls[s.calls.length]? = some ⟨.leading led, false⟩ →
      (search.attempt s input happenings).outcome? s.calls.length =
        some (.raised (.backend failure)) ∧
      ∃ r query, search.requestOf input = .ok r ∧
        Query.ofRequest search.grammar r = .ok query ∧
        search.started s.calls.length s (alone s input happenings) =
          [search.backendCall r query]
  /-- A value that is no request touches nothing but the list of calls, and the clock moves on. -/
  refused : ∀ error, search.requestOf input = .error error →
    (∃ call, search.attempt s input happenings = { s with
      calls := s.calls ++ [call], now := (search.attempt s input happenings).now }) ∧
    search.started s.calls.length s (alone s input happenings) = []
  /-- Made once more, the call does what it would have done at that time in the state before, unless
  a sweep behind its store has failed, or the clock goes back. -/
  repeats : ∀ later,
    ¬ search.Stumbles s input happenings (search.attempt s input happenings).cache →
    search.Steady s (alone s input happenings ++
      alone (search.attempt s input happenings) input later) →
      search.Repeats (search.attempt s input happenings)
        { s with now := (search.attempt s input happenings).now } input later

variable {search} {s : State} {input : Input} {happenings : List Happening} {r : Request}

theorem Steady.reached {earlier later : List Event}
    (hsteady : search.Steady s (earlier ++ later)) {deadline : Float}
    (hreached : Timeline.reached (search.run s earlier).now deadline = true) :
    Timeline.reached (search.run s (earlier ++ later)).now deadline = true := by
  induction later using List.reverseRecOn with
  | nil =>
      rw [List.append_nil]
      exact hreached
  | append_singleton later event ih =>
      rw [← List.append_assoc] at hsteady ⊢
      exact hsteady (earlier ++ later) event [] rfl deadline (ih hsteady.of_concat)

theorem Steady.of_append {earlier later : List Event}
    (hsteady : search.Steady s (earlier ++ later)) :
    search.Steady s earlier ∧ search.Steady (search.run s earlier) later := by
  constructor
  · rintro before event after rfl
    exact hsteady before event (after ++ later) (by simp)
  · rintro before event after rfl deadline hreached
    have hnext := hsteady (earlier ++ before) event after (by simp) deadline
    rw [List.append_assoc, run_append, run_append] at hnext
    exact hnext hreached

/-- A call cannot begin to fail at its lookup if what it finds is dead. -/
theorem Dead.get?_ne_error {cache : Cache Float Stored} {key : String} {time : Float}
    {e : Cache.Entry Float Stored} (hdead : Dead e time) (hstored : cache.stored? key = some e)
    (cause : Overflow) : cache.get? time key ≠ .error cause := by
  obtain ⟨left, hmisses⟩ := hdead.misses hstored
  intro hlooked
  cases hmisses with
  | absent looked =>
      rw [hlooked] at looked
      cases looked
  | thrown looked payload =>
      rw [hlooked] at looked
      cases looked

/-- Looking up finds nothing dead if it misses and clears nothing away. -/
theorem Misses.bare_eq_self {cache left : Cache Float Stored} {time : Float} {key : String}
    (hmisses : Misses cache time key left)
    (hnone : ∀ e, cache.stored? key = some e → ¬ Dead e time) : left.bare = cache.bare := by
  have hmissing : cache.stored? key = none := by
    cases hstored : cache.stored? key with
    | none => rfl
    | some e => exact absurd (hmisses.dead hstored) (hnone e hstored)
  rw [hmisses.bare_eq, Cache.without_eq_self hmissing]
  rfl

variable (search) in
/-- What a call for a request has left of the cache if it has been alone and has ended without a
result. -/
inductive Leaves (s : State) (input : Input) (r : Request) (happenings : List Happening) : Prop
  /-- What was there. -/
  | untouched (cache : (search.attempt s input happenings).cache = s.cache)
      (uncleared : ∀ e, ¬ search.ClearsAway s input happenings r e)
  /-- What its lookup has left. -/
  | missed {time : Float} (begins : ∀ time', search.Begins s input happenings time' ↔ time' = time)
      (missed : Misses s.cache time (search.key r) (search.attempt s input happenings).cache)
  /-- What the store of its answer has left. -/
  | stumbled (stumbles : search.Stumbles s input happenings
      (search.attempt s input happenings).cache)

theorem Stage.of_outcome (hstage : search.Stage s input r happenings) {outcome : Outcome}
    (houtcome : (search.attempt s input happenings).outcome? s.calls.length = some outcome) :
    ∃ looked, search.Course s input r happenings looked (.finished outcome)
        (search.attempt s input happenings).cache (search.attempt s input happenings).inflight
        (search.started s.calls.length s (alone s input happenings)) ∧
      ∀ time, search.Begins s input happenings time ↔ looked = some time := by
  obtain ⟨phase, requested, looked, hcalls, hcourse, hbegins⟩ := hstage
  rw [State.outcome?_eq_some_iff, State.phase?_of_called (getElem?_last hcalls)] at houtcome
  obtain rfl : phase = .finished outcome := Option.some.inj houtcome
  exact ⟨looked, hcourse, hbegins⟩

theorem Course.leaves {outcome : Outcome} {looked : Option Float}
    (hcourse : search.Course s input r happenings looked (.finished outcome)
        (search.attempt s input happenings).cache (search.attempt s input happenings).inflight
        (search.started s.calls.length s (alone s input happenings)))
    (hbegins : ∀ time, search.Begins s input happenings time ↔ looked = some time)
    (hfailed : ∀ result, outcome ≠ .returned result) :
    (search.attempt s input happenings).inflight = s.inflight ∧
      search.Leaves s input r happenings := by
  generalize hcache : (search.attempt s input happenings).cache = cache at hcourse
  generalize (search.attempt s input happenings).inflight = flights at hcourse ⊢
  generalize search.started s.calls.length s (alone s input happenings) = sent at hcourse
  have hmissed : ∀ time, looked = some time → Misses s.cache time (search.key r) cache →
      search.Leaves s input r happenings := by
    rintro time rfl hmissed
    refine .missed (fun time' => ?_) (hcache.symm ▸ hmissed)
    rw [hbegins]
    exact ⟨fun h => (Option.some.inj h).symm, fun h => by rw [h]⟩
  cases hcourse with
  | quit =>
      refine ⟨rfl, .untouched hcache ?_⟩
      rintro e ⟨time, hbegin, -⟩
      cases (hbegins time).1 hbegin
  | overflow looked =>
      refine ⟨rfl, .untouched hcache ?_⟩
      rintro e ⟨time, hbegin, hstored, hdead⟩
      obtain rfl := Option.some.inj ((hbegins time).1 hbegin)
      exact hdead.get?_ne_error hstored _ looked
  | parted missed => exact ⟨rfl, hmissed _ rfl missed⟩
  | refused missed refused => exact ⟨rfl, hmissed _ rfl missed⟩
  | cut missed compiled cut => exact ⟨rfl, hmissed _ rfl missed⟩
  | returned => exact absurd rfl (hfailed _)
  | stumbled stumbles compiled => exact ⟨rfl, .stumbled (hcache.symm ▸ stumbles)⟩

/-- A call whose value is no request leaves everything. -/
theorem Untouched.cache_eq {s' : State} (huntouched : search.Untouched s input s') :
    s'.cache = s.cache ∧ s'.inflight = s.inflight := by
  obtain ⟨_, _, _, rfl, -⟩ := huntouched
  exact ⟨rfl, rfl⟩

theorem attempt_leaves (hflights : s.SingleFlight) {outcome : Outcome}
    (houtcome : (search.attempt s input happenings).outcome? s.calls.length = some outcome)
    (hfailed : ∀ result, outcome ≠ .returned result) :
    (search.attempt s input happenings).inflight = s.inflight ∧
      ∀ r, search.requestOf input = .ok r → search.Leaves s input r happenings := by
  cases hasked : search.requestOf input with
  | ok r =>
      obtain ⟨looked, hcourse, hbegins⟩ :=
        (attempt_stage hflights hasked happenings).of_outcome houtcome
      obtain ⟨hinflight, hleaves⟩ := hcourse.leaves hbegins hfailed
      refine ⟨hinflight, fun r' heq => ?_⟩
      cases heq
      exact hleaves
  | error error =>
      refine ⟨(attempt_untouched hasked happenings).1.cache_eq.2, fun r heq => ?_⟩
      cases heq

/-- The error of a call that the checks or the compiler refuse tells that no backend was called. -/
theorem attempt_unsent (hflights : s.SingleFlight) {error : SearchError}
    (houtcome : (search.attempt s input happenings).outcome? s.calls.length =
      some (.raised error))
    (herror : (∃ errors warnings, error = .rejected errors warnings) ∨
      ∃ cause, error = .uncompilable cause) :
    search.started s.calls.length s (alone s input happenings) = [] := by
  cases hasked : search.requestOf input with
  | error _ => exact (attempt_untouched hasked happenings).2
  | ok r =>
      obtain ⟨looked, hcourse, -⟩ :=
        (attempt_stage hflights hasked happenings).of_outcome houtcome
      generalize search.started s.calls.length s (alone s input happenings) = sent at hcourse ⊢
      generalize (search.attempt s input happenings).cache = cache at hcourse
      generalize (search.attempt s input happenings).inflight = flights at hcourse
      generalize houtcome : Outcome.raised error = outcome at hcourse
      cases hcourse with
      | quit | overflow | parted | refused => rfl
      | returned => cases houtcome
      | cut missed compiled cut =>
          rcases herror with ⟨errors, warnings, rfl⟩ | ⟨cause, rfl⟩
          · cases cut <;> cases houtcome
          · cases cut <;> cases houtcome
      | stumbled stumbles compiled =>
          rcases herror with ⟨errors, warnings, rfl⟩ | ⟨cause, rfl⟩ <;> cases houtcome

/-- What a leader makes of an answer is how the call ends. -/
theorem attempt_concludes {earlier later : List Happening} {answer : Except Failure Json}
    {led : Sent} (hcall : (search.attempt s input earlier).calls[s.calls.length]? =
      some ⟨.leading led, false⟩) :
    (search.attempt s input (earlier ++ .reply answer :: later)).outcome? s.calls.length =
      some (search.conclude (search.attempt s input earlier) led answer) := by
  have hsplit : alone s input (earlier ++ .reply answer :: later) =
      alone s input earlier ++ (.reply s.calls.length answer ::
        later.map (Happening.event s.calls.length)) := by
    rw [alone, List.map_append, List.map_cons, alone, List.cons_append]
    rfl
  rw [attempt, hsplit, run_append]
  exact outcome?_run (reply_concludes hcall answer) _

theorem attempt_passed (hflights : s.SingleFlight) {earlier later : List Happening}
    {failure : Failure} {led : Sent}
    (hcall : (search.attempt s input earlier).calls[s.calls.length]? =
      some ⟨.leading led, false⟩) :
    (search.attempt s input (earlier ++ .reply (.error failure) :: later)).outcome?
        s.calls.length = some (.raised (.backend failure)) ∧
      ∃ r query, search.requestOf input = .ok r ∧
        Query.ofRequest search.grammar r = .ok query ∧
        search.started s.calls.length s
            (alone s input (earlier ++ .reply (.error failure) :: later)) =
          [search.backendCall r query] := by
  have houtcome : (search.attempt s input
      (earlier ++ .reply (.error failure) :: later)).outcome? s.calls.length =
        some (.raised (.backend failure)) := attempt_concludes hcall
  refine ⟨houtcome, ?_⟩
  cases hasked : search.requestOf input with
  | error error =>
      obtain ⟨phase, requested, time, hattempt, hphase⟩ := (attempt_untouched hasked earlier).1
      rw [hattempt, getElem?_last rfl] at hcall
      obtain ⟨rfl, -⟩ := Call.mk.inj (Option.some.inj hcall)
      simp at hphase
  | ok r =>
      obtain ⟨looked, hcourse, -⟩ := (attempt_stage hflights hasked _).of_outcome houtcome
      generalize search.started s.calls.length s _ = sent at hcourse ⊢
      generalize (search.attempt s input _).cache = cache at hcourse
      generalize (search.attempt s input _).inflight = flights at hcourse
      cases hcourse with
      | refused missed refused => cases refused
      | @cut _ _ query _ missed compiled cut => exact ⟨r, query, rfl, compiled, rfl⟩

theorem Stumbles.outcome? {cache : Cache Float Stored}
    (hstumbles : search.Stumbles s input happenings cache) :
    ∃ cause, (search.attempt s input happenings).outcome? s.calls.length =
      some (.raised (.cache (.overflow cause))) := by
  obtain ⟨earlier, answer, later, led, records, cause, rfl, hfetches, hkeep, -⟩ := hstumbles
  obtain ⟨hcall, value, heq, hrecords⟩ := hfetches
  cases heq
  refine ⟨cause, (attempt_concludes hcall).trans ?_⟩
  simp only [conclude, hrecords, hkeep]

/-- The keys that a call has put in flight. -/
def Phase.leadKeys : Phase → List String
  | .leading led => [led.flight.key]
  | _ => []

theorem Course.keys {phase : Phase} {looked : Option Float} {cache : Cache Float Stored}
    {flights : List (String × CallId)} {sent : List BackendCall}
    (hcourse : search.Course s input r happenings looked phase cache flights sent) :
    flights.map Prod.fst = phase.leadKeys ++ s.inflight.map Prod.fst := by
  cases hcourse with
  | led missed free compiled flight call =>
      rw [Phase.leadKeys, flight]
      rfl
  | _ => rfl

theorem attempt_keys (hflights : s.SingleFlight) (input : Input) (happenings : List Happening) :
    ∃ call, (search.attempt s input happenings).calls[s.calls.length]? = some call ∧
      (search.attempt s input happenings).inflight.map Prod.fst =
        call.phase.leadKeys ++ s.inflight.map Prod.fst := by
  cases hasked : search.requestOf input with
  | ok r =>
      obtain ⟨phase, requested, looked, hcalls, hcourse, -⟩ :=
        attempt_stage hflights hasked happenings
      exact ⟨⟨phase, requested⟩, getElem?_last hcalls, hcourse.keys⟩
  | error error =>
      obtain ⟨phase, requested, time, hattempt, hphase⟩ : search.Untouched s input _ :=
        (attempt_untouched hasked happenings).1
      refine ⟨⟨phase, requested⟩, ?_, ?_⟩
      · rw [hattempt, getElem?_last rfl]
      · rw [hattempt]
        rcases hphase with rfl | rfl | ⟨error, -, rfl⟩ <;> rfl

/-- What a failed call has left of the cache is what was there, but for what its lookup has cleared
away. -/
theorem Leaves.cleared (hleaves : search.Leaves s input r happenings)
    (hkept : ¬ search.Stumbles s input happenings (search.attempt s input happenings).cache)
    (hsteady : search.Steady s (alone s input happenings)) :
    (search.attempt s input happenings).cache.bare = s.cache.bare ∨
      Cleared (search.key r) (search.attempt s input happenings).now
        (search.attempt s input happenings).cache s.cache := by
  cases hleaves with
  | untouched cache uncleared => exact .inl (by rw [cache])
  | stumbled stumbles => exact absurd stumbles hkept
  | @missed time begins missed =>
      cases hstored : s.cache.stored? (search.key r) with
      | none => exact .inl (missed.bare_eq_self (by simp [hstored]))
      | some e =>
          refine .inr ⟨missed.bare_eq, e, hstored, (missed.dead hstored).mono fun deadline => ?_⟩
          obtain ⟨earlier, later, rfl, -, rfl⟩ := (begins time).2 rfl
          have hsplit : alone s input (earlier ++ .resume :: later) = alone s input earlier ++
              (Happening.resume :: later).map (Happening.event s.calls.length) := by
            rw [alone, List.map_append, alone, List.cons_append]
          rw [hsplit] at hsteady
          rw [attempt, attempt, hsplit]
          exact hsteady.reached

/-- Two calls for one input do the same if the clock reads the same, the same flights are there, and
the caches are alike but for what a lookup clears away. -/
theorem repeats_of_cleared {s' : State} (hflights : s.SingleFlight) (hflights' : s'.SingleFlight)
    (hinflight : s.inflight = s'.inflight) (hnow : s.now = s'.now)
    (hcache : s.cache.bare = s'.cache.bare ∨ ∃ r, search.requestOf input = .ok r ∧
      Cleared (search.key r) s'.now s.cache s'.cache)
    (hsteady : search.Steady s (alone s input happenings)) :
    search.Repeats s s' input happenings := by
  have hgiven : ∃ key, ((∃ r, search.requestOf input = .ok r ∧ search.key r = key) ∨
      ∃ error, search.requestOf input = .error error ∧ s.cache.bare = s'.cache.bare) ∧
      (s.cache.bare = s'.cache.bare ∨ Cleared key s'.now s.cache s'.cache) := by
    rcases hcache with hbare | ⟨r, hasked, hcleared⟩
    · cases hasked : search.requestOf input with
      | ok r => exact ⟨search.key r, .inl ⟨r, rfl, rfl⟩, .inl hbare⟩
      | error error => exact ⟨"", .inr ⟨error, rfl, hbare⟩, .inl hbare⟩
    · exact ⟨search.key r, .inl ⟨r, hasked, rfl⟩, .inr hcleared⟩
  obtain ⟨key, hasked, hcache⟩ := hgiven
  obtain ⟨htwin, hstarted⟩ :=
    attempt_twin hflights hflights' hinflight hnow hasked hcache hsteady
  refine ⟨htwin.call, hstarted, ?_, ?_⟩
  · obtain ⟨call, hcall, hkeys⟩ := attempt_keys hflights input happenings
    obtain ⟨call', hcall', hkeys'⟩ := attempt_keys hflights' input happenings
    rw [htwin.call, hcall'] at hcall
    obtain rfl := Option.some.inj hcall
    rw [hkeys, hkeys', hinflight]
  · rcases htwin.cache with hbare | ⟨hcleared, hunlooked⟩
    · exact .inl hbare
    · rcases hasked with ⟨r, hasked, rfl⟩ | ⟨error, hasked, hbare⟩
      · exact .inr ⟨r, hasked, hcleared, hunlooked⟩
      · have hown : search.Untouched s input _ := (attempt_untouched hasked happenings).1
        have hown' : search.Untouched s' input _ := (attempt_untouched hasked happenings).1
        exact .inl (by rw [hown.cache_eq.1, hown'.cache_eq.1, hbare])

theorem attempt_repeats (hflights : s.SingleFlight) {outcome : Outcome}
    (houtcome : (search.attempt s input happenings).outcome? s.calls.length = some outcome)
    (hfailed : ∀ result, outcome ≠ .returned result) (later : List Happening)
    (hkept : ¬ search.Stumbles s input happenings (search.attempt s input happenings).cache)
    (hsteady : search.Steady s (alone s input happenings ++
      alone (search.attempt s input happenings) input later)) :
    search.Repeats (search.attempt s input happenings)
      { s with now := (search.attempt s input happenings).now } input later := by
  obtain ⟨hinflight, hleaves⟩ := attempt_leaves hflights houtcome hfailed
  obtain ⟨hsteady, hsteady'⟩ := hsteady.of_append
  refine repeats_of_cleared (run_singleFlight _ hflights) ⟨hflights.keys_nodup, hflights.mem_iff⟩
    hinflight rfl ?_ hsteady'
  cases hasked : search.requestOf input with
  | ok r =>
      exact ((hleaves r hasked).cleared hkept hsteady).imp_right fun hcleared =>
        ⟨r, rfl, hcleared⟩
  | error error =>
      have hown : search.Untouched s input _ := (attempt_untouched hasked happenings).1
      exact .inl (by rw [hown.cache_eq.1])

/-- A call that is alone and ends without a result leaves nothing behind. -/
theorem attempt_failsCleanly (hflights : s.SingleFlight) {outcome : Outcome}
    (houtcome : (search.attempt s input happenings).outcome? s.calls.length = some outcome)
    (hfailed : ∀ result, outcome ≠ .returned result) :
    search.FailsCleanly s input happenings := by
  obtain ⟨hinflight, hleaves⟩ := attempt_leaves hflights houtcome hfailed
  constructor
  · exact hinflight
  · intro r hasked hkept huncleared
    cases hleaves r hasked with
    | untouched cache uncleared => rw [cache]
    | stumbled stumbles => exact absurd stumbles hkept
    | @missed time begins missed =>
        have hbare := missed.bare_eq_self fun e hstored hdead =>
          huncleared e ⟨time, (begins time).2 rfl, hstored, hdead⟩
        rw [← Cache.entries_bare, hbare, Cache.entries_bare]
  · rintro r e hasked hkept hclears
    cases hleaves r hasked with
    | untouched cache uncleared => exact absurd hclears (uncleared e)
    | stumbled stumbles => exact absurd stumbles hkept
    | @missed time begins missed => rw [← Cache.entries_bare, missed.bare_eq]
  · exact fun cache hstumbles => hstumbles.outcome?
  · exact fun error houtcome herror => attempt_unsent hflights houtcome herror
  · rintro earlier later failure led rfl hcall
    exact attempt_passed hflights hcall
  · intro error hasked
    obtain ⟨⟨phase, requested, time, hattempt, -⟩, hnone⟩ := attempt_untouched hasked happenings
    exact ⟨⟨⟨phase, requested⟩, by rw [hattempt]⟩, hnone⟩
  · exact attempt_repeats hflights houtcome hfailed

/-- The backend is down when the request by text is sent to it. -/
theorem attempt_failsCleanly_crashes :
    (attempt {} (State.start {} none none 1000.0) (.request crashes)
        [.resume, .reply (.error ⟨.connection, "down"⟩)]).outcome? 0 =
      some (.raised (.backend ⟨.connection, "down"⟩)) ∧
    FailsCleanly {} (State.start {} none none 1000.0) (.request crashes)
      [.resume, .reply (.error ⟨.connection, "down"⟩)] := by
  have hcall : (attempt {} (State.start {} none none 1000.0) (.request crashes)
      [.resume]).calls[0]? = some ⟨.leading crashesSent, false⟩ :=
    congrArg (fun s : State => s.calls[0]?) run_crashes_led
  have houtcome : (attempt {} (State.start {} none none 1000.0) (.request crashes)
      ([.resume] ++ [.reply (.error ⟨.connection, "down"⟩)])).outcome? 0 =
        some (.raised (.backend ⟨.connection, "down"⟩)) := attempt_concludes hcall
  exact ⟨houtcome,
    attempt_failsCleanly (State.singleFlight_of_idle rfl rfl) houtcome (by simp)⟩

theorem cache_reply {id : CallId} {sent : Sent} {value : Json} {records : List Json}
    (hcall : s.calls[id]? = some ⟨.leading sent, false⟩)
    (hrecords : recordsOf value = some records) :
    (search.step s (.reply id (.ok value))).1.cache =
      (search.keep s sent.flight.key (search.resultOf s.now sent records)).2.1.cache := by
  simp only [step, reply, hcall, hrecords, State.cache_land]

theorem unexpired_eq_error {entries : List (Cache.Entry Float Stored)} {now : Float}
    {cause : Overflow} (hne : entries ≠ [])
    (huntold : ∀ e ∈ entries, e.isExpired now = .error cause) :
    Cache.unexpired now entries = .error cause := by
  cases entries with
  | nil => exact absurd rfl hne
  | cons e rest =>
      rw [Cache.unexpired, huntold e List.mem_cons_self]
      rfl

section Untold

variable {ttl : Int} {cause : Overflow}

/-- Where no clock can tell when entries expire, a store that is swept behind it fails, and the
cache holds something. -/
theorem keep_untold (httl : search.settings.resultTtl = .int ttl) (hpos : 0 < ttl)
    (huntold : Timeline.after s.now ttl = .error cause)
    (hentries : ∀ e ∈ s.cache.entries, e.isExpired s.now = .error cause)
    (hdue : s.cache.policy.sweepInterval ≤ s.cache.setsSinceSweep + 1) (key : String)
    (result : SearchResult) :
    (search.keep s key result).1 = .error (.overflow cause) ∧
      (search.keep s key result).2.1.cache.entries ≠ [] := by
  have hstored := (s.cache.place_places ⟨key, .result result, s.now, ttl, 0⟩).stored?_self
  have hne := List.ne_nil_of_mem (Cache.stored?_some hstored).1
  have hplaced : Cache.unexpired s.now
      (s.cache.place ⟨key, .result result, s.now, ttl, 0⟩).1.entries = .error cause := by
    refine unexpired_eq_error hne fun e he => ?_
    rcases Cache.mem_place he with rfl | ⟨hold, -⟩
    · simp only [Cache.Entry.isExpired, Cache.Entry.expiresAt, huntold]
      rfl
    · exact hentries e hold
  obtain ⟨entries, evictions, hframe, -⟩ :=
    s.cache.place_frame ⟨key, .result result, s.now, ttl, 0⟩
  rcases hplace : s.cache.place ⟨key, .result result, s.now, ttl, 0⟩ with ⟨placed, log⟩
  rw [hplace] at hframe hplaced hne
  obtain rfl : placed = _ := hframe
  simp only [keep, httl, insert_ttl hpos, Cache.store, hplace, if_pos hdue, Cache.sweep, hplaced,
    Except.map, Except.mapError]
  exact ⟨trivial, hne⟩

/-- So does the call whose answer is stored. -/
theorem attempt_untold {earlier : List Happening} {value : Json} {records : List Json} {led : Sent}
    (hcall : (search.attempt s input earlier).calls[s.calls.length]? =
      some ⟨.leading led, false⟩) (hrecords : recordsOf value = some records)
    (httl : search.settings.resultTtl = .int ttl) (hpos : 0 < ttl)
    (huntold : Timeline.after (search.attempt s input earlier).now ttl = .error cause)
    (hempty : (search.attempt s input earlier).cache.entries = [])
    (hdue : (search.attempt s input earlier).cache.policy.sweepInterval ≤
      (search.attempt s input earlier).cache.setsSinceSweep + 1) :
    (search.attempt s input (earlier ++ [.reply (.ok value)])).outcome? s.calls.length =
        some (.raised (.cache (.overflow cause))) ∧
      (search.attempt s input (earlier ++ [.reply (.ok value)])).cache.entries ≠ [] := by
  obtain ⟨hfailed, hentries⟩ := keep_untold httl hpos huntold (by simp [hempty]) hdue
    led.flight.key (search.resultOf (search.attempt s input earlier).now led records)
  constructor
  · rw [attempt_concludes hcall]
    simp only [conclude, hrecords, hfailed]
  · rw [attempt_concat, Happening.event, cache_reply hcall hrecords]
    exact hentries

end Untold

/-- A search that keeps its results for longer than any clock can tell. -/
def endlessly : Search := { settings.resultTtl := .int Cache.endless }

/-- Searches that have not begun, and an empty cache under a policy. -/
def emptyUnder (policy : Cache.Policy) : State := State.start { policy } none none 1000.0

theorem attempt_endlessly_led (policy : Cache.Policy) :
    endlessly.attempt (emptyUnder policy) (.request crashes) [.resume] =
      { crashesLed with cache := { (emptyUnder policy).cache with counters.misses := 1 } } := by
  have hrun : endlessly.attempt (emptyUnder policy) (.request crashes) [.resume] =
      (step {} { emptyUnder policy with calls := [⟨.ready (.request crashes), false⟩] }
        (.resume 0)).1 := rfl
  rw [hrun, resume_crashes rfl rfl rfl, board_crashes rfl rfl]
  rfl

/-- Nothing limits how long results are kept. Where no clock tells when they expire and every store
is followed by a sweep, the call ends with the error of the sweep behind its store, and the cache
that was empty holds its result. -/
theorem attempt_endlessly :
    let start := emptyUnder { sweepInterval := 1 }
    endlessly.settings.resultTtl = .int Cache.endless ∧ 0 < Cache.endless ∧
    start.cache.entries = [] ∧
    (endlessly.attempt start (.request crashes)
        [.resume, .reply (.ok (.arr []))]).outcome? 0 =
      some (.raised (.cache (.overflow .integer))) ∧
    (endlessly.attempt start (.request crashes)
        [.resume, .reply (.ok (.arr []))]).cache.entries ≠ [] := by
  intro start
  have httl : endlessly.settings.resultTtl = .int Cache.endless := rfl
  have hpos : 0 < Cache.endless := by decide +kernel
  have hnumber : start.calls.length = 0 := rfl
  have hled : endlessly.attempt start (.request crashes) [.resume] =
      { crashesLed with cache := { start.cache with counters.misses := 1 } } :=
    attempt_endlessly_led { sweepInterval := 1 }
  have hcall : (endlessly.attempt start (.request crashes) [.resume]).calls[0]? =
      some ⟨.leading crashesSent, false⟩ := by
    rw [hled]
    rfl
  have hempty : (endlessly.attempt start (.request crashes) [.resume]).cache.entries = [] := by
    rw [hled]
    rfl
  have hdue : (endlessly.attempt start (.request crashes) [.resume]).cache.policy.sweepInterval
      ≤ (endlessly.attempt start (.request crashes) [.resume]).cache.setsSinceSweep + 1 := by
    rw [hled]
    exact Nat.le_refl 1
  have hrecords : recordsOf (.arr []) = some [] := rfl
  have hstumbled := attempt_untold hcall hrecords httl hpos (Cache.after_endless _) hempty hdue
  rw [hnumber, List.singleton_append] at hstumbled
  exact ⟨httl, hpos, rfl, hstumbled⟩

end IssueSearch.Search
