import IssueSearch.Proofs.Search.Rerun
/-!
What is left of the past when a key is invalidated. A command that covers the key leaves nothing in
the cache under it, but it does not reach the flights: a backend call that is outstanding at that
moment goes on, is joined by calls that begin later, and its answer is stored for them.

That is all that is left. A call which begins after the invalidation is answered with records that
the backend has given since, and the backend call that they answer was outstanding at the
invalidation or has been started since.
-/
namespace IssueSearch

/-- Whether a command removes whatever is stored under a key. -/
def Cache.Command.covers {α : Type} : Cache.Command α → String → Bool
  | .delete other, key => other == key
  | .deletePattern pattern, key => Text.occursIn pattern.toList key.toList
  | .invalidateDomain domain, key => Text.occursIn (domain ++ ":").toList key.toList
  | .clear, _ => true
  | .get _, _ | .set _ _ _, _ | .contains _, _ | .sweep, _ => false

namespace Search

variable {search : Search} {s s' : State} {key : String}

/-- Nothing is stored under a key behind a command that covers it. -/
theorem lacks_of_covers {command : Cache.Command Stored} (hcovers : command.covers key = true) :
    Lacks (search.step s (.cache command)).1.cache key := by
  have hmatching : ∀ pattern, Text.occursIn pattern.toList key.toList = true →
      Lacks (s.cache.eraseMatching pattern).2.1 key := by
    rintro pattern hpattern e he rfl
    have hkept := (List.mem_filter.1 he).2
    rw [hpattern] at hkept
    cases hkept
  cases command with
  | get | set | contains | sweep => cases hcovers
  | delete other =>
      obtain rfl : other = key := beq_iff_eq.1 hcovers
      intro e he
      have hleft : e ∈ (s.cache.erase other).2.entries := he
      rw [Cache.erase_entries] at hleft
      exact (Cache.mem_without.1 hleft).2
  | deletePattern pattern => exact hmatching pattern hcovers
  | invalidateDomain domain => exact hmatching (domain ++ ":") hcovers
  | clear =>
      intro e he
      cases he

/-! ### Where a backend call comes from -/

variable (search) in
/-- A backend call was outstanding in a state, or has been started in the events that followed. -/
inductive Origin (s : State) (events : List Event) (leader : CallId) (sent : Sent) : Prop
  | outstanding (led : s.phase? leader = some (.leading sent))
  | started {before between : List Event} {event : Event}
      (split : events = before ++ event :: between)
      (starts : search.Starts (search.run s before) event leader sent)

theorem Origin.concat {events : List Event} {leader : CallId} {sent : Sent}
    (horigin : search.Origin s events leader sent) (event : Event) :
    search.Origin s (events ++ [event]) leader sent := by
  cases horigin with
  | outstanding led => exact .outstanding led
  | @started before between started split starts =>
      have hsplit : events ++ [event] = before ++ started :: (between ++ [event]) := by simp [split]
      exact .started hsplit starts

/-- Whoever brings a flight does not lead. -/
theorem Brings.unled {id : CallId} {flight : Flight} (hbrings : search.Brings s id flight)
    {phase : Phase} (hphase : s.phase? id = some phase) (sent : Sent) : phase ≠ .leading sent := by
  cases hbrings with
  | fresh called asked =>
      rw [State.phase?_of_called called] at hphase
      cases hphase
      simp
  | again called ended =>
      rw [State.phase?_of_called called] at hphase
      cases hphase
      simp

/-- Whoever leads has led before, or takes the lead now. -/
theorem starts_of_led {event : Event} {id : CallId} {sent : Sent}
    (hled : (search.step s event).1.phase? id = some (.leading sent)) :
    s.phase? id = some (.leading sent) ∨ search.Starts s event id sent := by
  rcases (search.step_move s event).turn hled with hold | hturn
  · exact .inl hold
  · obtain ⟨-, hbrings⟩ := hturn.brings rfl
    refine .inr ⟨fun sent' hleading => ?_, hled⟩
    exact absurd rfl (hbrings.unled hleading sent')

theorem run_origin (events : List Event) {leader : CallId} {sent : Sent}
    (hled : (search.run s events).phase? leader = some (.leading sent)) :
    search.Origin s events leader sent := by
  induction events using List.reverseRecOn with
  | nil => exact .outstanding hled
  | append_singleton events event ih =>
      rw [run_concat] at hled
      rcases starts_of_led hled with hold | hstarts
      · exact (ih hold).concat event
      · exact .started rfl hstarts

/-! ### What has been fetched since -/

variable (search) in
/-- A result that a leader of a key has made of the backend's answer in the course of events. -/
inductive Fetched (s : State) (key : String) : List Event → SearchResult → Prop
  | of_answer {earlier later : List Event} {answer : Event} {leader : CallId} {sent : Sent}
      {records : List Json}
      (fetches : Fetches (search.run s earlier) answer leader sent records)
      (key_eq : sent.flight.key = key) (origin : search.Origin s earlier leader sent) :
      Fetched s key (earlier ++ answer :: later)
        (search.resultOf (search.run s earlier).now sent records)

theorem Fetched.concat {events : List Event} {result : SearchResult}
    (hfetched : search.Fetched s key events result) (event : Event) :
    search.Fetched s key (events ++ [event]) result := by
  cases hfetched with
  | of_answer fetches key_eq origin =>
      rw [List.append_assoc, List.cons_append]
      exact .of_answer fetches key_eq origin

theorem Fetched.of_fetches {events : List Event} {event : Event} {leader : CallId} {sent : Sent}
    {records : List Json} (hfetches : Fetches (search.run s events) event leader sent records)
    (hkey : sent.flight.key = key) : search.Fetched s key (events ++ [event])
      (search.resultOf (search.run s events).now sent records) :=
  .of_answer hfetches hkey (run_origin events (State.phase?_of_called hfetches.called))

/-- Where nothing was under a key, whatever is stored under it later has been fetched since. -/
theorem run_stored_fetched (hlacks : Lacks s.cache key) {events : List Event}
    (hwrites : ∀ event ∈ events, event.writes = false) :
    ∀ e ∈ (search.run s events).cache.entries, e.key = key →
      ∃ result, e.payload = .result result ∧ search.Fetched s key events result := by
  induction events using List.reverseRecOn with
  | nil =>
      intro e he hkey
      exact absurd hkey (hlacks e he)
  | append_singleton events event ih =>
      have hrun := ih fun other hother => hwrites other (List.mem_append_left _ hother)
      have hextend : ∀ e ∈ (search.run s events).cache.entries, e.key = key →
          ∃ result, e.payload = .result result ∧
            search.Fetched s key (events ++ [event]) result := by
        intro e he hkey
        obtain ⟨result, hpayload, hfetched⟩ := hrun e he hkey
        exact ⟨result, hpayload, hfetched.concat event⟩
      intro e he hkey
      rw [run_concat] at he
      rcases mem_step_cases (hwrites event (by simp)) he with
        ⟨old, hold, hsame⟩ | ⟨id, sent, records, hfetches, hsent, hpayload⟩
      · rw [hsame] at hkey ⊢
        exact hextend old hold hkey
      · exact ⟨_, hpayload, .of_fetches hfetches (hsent.symm.trans hkey)⟩

theorem conclude_eq_returned {sent : Sent} {answer : Except Failure Json} {result : SearchResult}
    (hconclude : search.conclude s sent answer = .returned result) :
    ∃ value records, answer = .ok value ∧ recordsOf value = some records ∧
      result = search.resultOf s.now sent records := by
  cases answer with
  | error failure => cases hconclude
  | ok value =>
      cases hanswered : recordsOf value with
      | none =>
          simp only [conclude, hanswered] at hconclude
          cases hconclude
      | some records =>
          simp only [conclude, hanswered] at hconclude
          split at hconclude
          · cases hconclude
            exact ⟨value, records, rfl, hanswered, rfl⟩
          · cases hconclude

/-- A leader that returns a result has fetched it. -/
theorem fetches_of_returned {event : Event} {leader : CallId} {result : SearchResult}
    (hleads : s.Leads leader key)
    (houtcome : (search.step s event).1.outcome? leader = some (.returned result)) :
    ∃ sent records, Fetches s event leader sent records ∧ sent.flight.key = key ∧
      result = search.resultOf s.now sent records := by
  obtain ⟨sent, hphase, hkey⟩ := hleads
  have hcalled : ∀ {phase requested}, s.calls[leader]? = some ⟨phase, requested⟩ →
      phase = .leading sent := by
    intro phase requested hcall
    rw [State.phase?_of_called hcall] at hphase
    exact Option.some.inj hphase
  rcases finishes_of_step houtcome with hold | hfinishes
  · rw [State.outcome?_eq_some_iff, hphase] at hold
    cases hold
  · generalize houtcome' : Outcome.returned result = outcome at hfinishes
    cases hfinishes with
    | asked called => cases houtcome'
    | early called uncancelled => cases hcalled called
    | share called ended uncancelled => cases hcalled called
    | refuse called ended free refused => cases houtcome'
    | conclude called =>
        cases hcalled called
        obtain ⟨value, records, rfl, hanswered, hresult⟩ := conclude_eq_returned houtcome'.symm
        exact ⟨sent, records, ⟨called, value, rfl, hanswered⟩, hkey, hresult⟩

/-- A call that leads a key at some time since leads it on, or ends with a result only if it has
fetched it since. -/
theorem run_led_fetched {earlier : List Event} {leader : CallId}
    (hleads : (search.run s earlier).Leads leader key) (later : List Event) :
    (search.run s (earlier ++ later)).Leads leader key ∨
      ∃ outcome, (search.run s (earlier ++ later)).outcome? leader = some outcome ∧
        ∀ result, outcome = .returned result →
          search.Fetched s key (earlier ++ later) result := by
  induction later using List.reverseRecOn with
  | nil =>
      rw [List.append_nil]
      exact .inl hleads
  | append_singleton later event ih =>
      rw [← List.append_assoc, run_concat]
      rcases ih with hstill | ⟨outcome, hended, hfetched⟩
      · rcases leads_step hstill event with hnext | ⟨outcome, hended⟩
        · exact .inl hnext
        · refine .inr ⟨outcome, hended, ?_⟩
          rintro result rfl
          obtain ⟨sent, records, hfetches, hkey, rfl⟩ := fetches_of_returned hstill hended
          exact .of_fetches hfetches hkey
      · exact .inr ⟨outcome, outcome?_step hended event,
          fun result hreturned => (hfetched result hreturned).concat event⟩

/-! ### Calls that begin afterwards -/

variable (search) in
/-- What a call for a request has come to that has begun after a state: whom it follows has led the
key since, and what it returns has been fetched since. -/
def Phase.Since (s : State) (r : Request) (events : List Event) : Phase → Prop
  | .ready input => search.requestOf input = .ok r
  | .following flight leader => flight.key = search.key r ∧
      ∃ earlier later, events = earlier ++ later ∧
        (search.run s earlier).Leads leader (search.key r)
  | .leading sent => sent.flight.key = search.key r
  | .finished (.returned result) => ∃ fetched, search.Fetched s (search.key r) events fetched ∧
      (result = fetched ∨ result = fetched.fromCache r)
  | .finished _ => True

theorem Phase.Since.concat {r : Request} {events : List Event} {phase : Phase}
    (hsince : phase.Since search s r events) (event : Event) :
    phase.Since search s r (events ++ [event]) := by
  cases phase with
  | ready input => exact hsince
  | following flight leader =>
      obtain ⟨hkey, earlier, later, rfl, hleads⟩ := hsince
      exact ⟨hkey, earlier, later ++ [event], by simp, hleads⟩
  | leading sent => exact hsince
  | finished outcome =>
      cases outcome with
      | returned result =>
          obtain ⟨fetched, hfetched, hresult⟩ := hsince
          exact ⟨fetched, hfetched.concat event, hresult⟩
      | raised error => trivial
      | cancelled => trivial

theorem Brings.key_eq {r : Request} {events : List Event} {id : CallId} {flight : Flight}
    (hbrings : search.Brings s' id flight)
    (hsince : ∀ phase, s'.phase? id = some phase → phase.Since search s r events) :
    flight.key = search.key r := by
  cases hbrings with
  | fresh called asked =>
      have hasked : search.requestOf _ = .ok r := hsince _ (State.phase?_of_called called)
      rw [asked] at hasked
      cases hasked
      rfl
  | again called ended => exact (hsince _ (State.phase?_of_called called)).1

/-- One step of a call that has begun after a state. -/
theorem Turn.since {r : Request} {events : List Event} (hflights : s.SingleFlight)
    (hlacks : Lacks s.cache (search.key r)) (hwrites : ∀ event ∈ events, event.writes = false)
    {event : Event} {id : CallId} {phase phase' : Phase}
    (hturn : search.Turn (search.run s events) event id phase')
    (hphase : (search.run s events).phase? id = some phase)
    (hsince : phase.Since search s r events) :
    phase'.Since search s r (events ++ [event]) := by
  have hcalled : ∀ {other requested},
      (search.run s events).calls[id]? = some ⟨other, requested⟩ → other = phase := by
    intro other requested hcall
    rw [State.phase?_of_called hcall] at hphase
    exact Option.some.inj hphase
  have hown : ∀ phase, (search.run s events).phase? id = some phase →
      phase.Since search s r events := by
    intro other hother
    rw [hphase] at hother
    cases hother
    exact hsince
  cases hturn with
  | arrive input =>
      simp [State.phase?] at hphase
  | cancel | raise => trivial
  | hit called asked looked payload =>
      have hasked : search.requestOf _ = .ok r := hown _ (State.phase?_of_called called)
      rw [asked] at hasked
      cases hasked
      obtain ⟨old, hstored, -, rfl, -⟩ := Cache.get?_eq_some looked
      obtain ⟨hmem, hkey⟩ := Cache.stored?_some hstored
      obtain ⟨fetched, hpayload, hfetched⟩ := run_stored_fetched hlacks hwrites old hmem hkey
      rw [hpayload] at payload
      cases payload
      exact ⟨_, hfetched.concat _, .inr rfl⟩
  | follow brings found =>
      have hkey := brings.key_eq hown
      rw [hkey] at found
      have hleads := ((run_singleFlight events hflights).lookup_iff _ _).1 found
      exact ⟨hkey, events, _, rfl, hleads⟩
  | lead brings valid compiled => exact brings.key_eq hown
  | @adopt _ leader flight outcome called ended uncancelled =>
      obtain ⟨-, earlier, later, rfl, hleads⟩ := hown _ (State.phase?_of_called called)
      cases outcome with
      | returned result =>
          rcases run_led_fetched hleads later with hstill | ⟨outcome, hended, hfetched⟩
          · rw [State.outcome?_eq_none_of_leads hstill] at ended
            cases ended
          · rw [ended] at hended
            cases hended
            exact ⟨result, (hfetched result rfl).concat _, .inl rfl⟩
      | raised error => trivial
      | cancelled => trivial
  | @fetch _ sent value records called answered =>
      have hkey : sent.flight.key = search.key r := hown _ (State.phase?_of_called called)
      exact ⟨_, .of_fetches ⟨called, value, rfl, answered⟩ hkey, .inl rfl⟩

theorem run_since {r : Request} (hflights : s.SingleFlight)
    (hlacks : Lacks s.cache (search.key r)) {earlier later : List Event}
    (hwrites : ∀ event ∈ earlier ++ later, event.writes = false) {id : CallId} {input : Input}
    (hready : (search.run s earlier).phase? id = some (.ready input))
    (hasked : search.requestOf input = .ok r) :
    ∃ phase, (search.run s (earlier ++ later)).phase? id = some phase ∧
      phase.Since search s r (earlier ++ later) := by
  induction later using List.reverseRecOn with
  | nil =>
      rw [List.append_nil]
      exact ⟨_, hready, hasked⟩
  | append_singleton later event ih =>
      rw [← List.append_assoc] at hwrites ⊢
      have hbefore : ∀ other ∈ earlier ++ later, other.writes = false :=
        fun other hother => hwrites other (List.mem_append_left _ hother)
      obtain ⟨phase, hphase, hsince⟩ := ih hbefore
      rw [run_concat]
      have hmove := search.step_move (search.run s (earlier ++ later)) event
      obtain ⟨phase', hphase'⟩ := hmove.phase?_isSome hphase
      refine ⟨phase', hphase', ?_⟩
      rcases hmove.turn hphase' with hold | hturn
      · rw [hphase] at hold
        cases hold
        exact hsince.concat event
      · exact hturn.since hflights hlacks hbefore hphase hsince

/-- Whatever the order in which calls arrive, go on, are answered and are asked to end, a call that
begins after its key was invalidated returns nothing but what has been fetched since, by a backend
call that was outstanding at the invalidation or has been started since. -/
theorem run_answeredSince {cache : Cache Float Stored} {monitor : Option Monitor}
    {metrics : Option Metrics} {now : Float} {before between later : List Event}
    {command : Cache.Command Stored} {id : CallId} {input : Input} {r : Request}
    {result : SearchResult} (hasked : search.requestOf input = .ok r)
    (hcovers : command.covers (search.key r) = true)
    (hready : (search.run (State.start cache monitor metrics now)
      (before ++ .cache command :: between)).phase? id = some (.ready input))
    (hwrites : ∀ event ∈ between ++ later, event.writes = false)
    (houtcome : (search.run (State.start cache monitor metrics now)
      (before ++ .cache command :: (between ++ later))).outcome? id = some (.returned result)) :
    ∃ fetched, search.Fetched
        (search.run (State.start cache monitor metrics now) (before ++ [.cache command]))
        (search.key r) (between ++ later) fetched ∧
      (result = fetched ∨ result = fetched.fromCache r) := by
  have hflights : (search.run (State.start cache monitor metrics now)
      (before ++ [.cache command])).SingleFlight :=
    run_singleFlight _ (State.singleFlight_of_idle rfl rfl)
  have hlacks : Lacks (search.run (State.start cache monitor metrics now)
      (before ++ [.cache command])).cache (search.key r) := by
    rw [run_concat]
    exact lacks_of_covers hcovers
  rw [List.append_cons, run_append] at hready houtcome
  obtain ⟨phase, hphase, hsince⟩ := run_since hflights hlacks hwrites hready hasked
  rw [State.outcome?_eq_some_iff.1 houtcome] at hphase
  cases hphase
  exact hsince

/-! ### What is outstanding is not reached -/

/-- The cache is cleared while the backend works for the first call. The second begins then, and
joins it; the third begins when both have ended. -/
def clearedMidway : List Event := [
  .arrive (.request crashes), .resume 0, .cache .clear,
  .arrive (.request crashes), .resume 1, .reply 0 (.ok (.arr [.str "old"])), .resume 1,
  .arrive (.request crashes), .resume 2]

def crashesOld : SearchResult := resultOf {} 1000.0 crashesSent [.str "old"]

/-- The state in which the first call has returned, and the second goes on. -/
def crashesShared : State :=
  { crashesLanded with
    cache := { crashesLanded.cache with
      entries := [fetchedEntry {} 1000.0 60 crashesSent [.str "old"]]
      counters.misses := 2 }
    calls := [⟨.finished (.returned crashesOld), false⟩,
      ⟨.following crashesSent.flight 0, false⟩] }

theorem run_crashes_shared :
    run {} (State.start {} none none 1000.0) (clearedMidway.take 6) = crashesShared := by
  have hrun : run {} (State.start {} none none 1000.0) (clearedMidway.take 6) =
      run {} (run {} (State.start {} none none 1000.0) [.arrive (.request crashes), .resume 0])
        [.cache .clear, .arrive (.request crashes), .resume 1,
          .reply 0 (.ok (.arr [.str "old"]))] := rfl
  let begun : State := { crashesLed with
    calls := [⟨.leading crashesSent, false⟩, ⟨.ready (.request crashes), false⟩] }
  let joined : State := { crashesLed with
    cache := { crashesLed.cache with counters.misses := 2 }
    calls := [⟨.leading crashesSent, false⟩, ⟨.following crashesSent.flight 0, false⟩] }
  have hjoins : (step {} begun (.resume 1)).1 = joined := by
    rw [resume_crashes rfl rfl rfl, board_crashes_led rfl]
    rfl
  have hcleared : run {} crashesLed [.cache .clear, .arrive (.request crashes), .resume 1,
      .reply 0 (.ok (.arr [.str "old"]))] =
      (step {} (step {} begun (.resume 1)).1 (.reply 0 (.ok (.arr [.str "old"])))).1 := rfl
  have hgone : joined.inflight.filter (·.1 != crashesSent.flight.key) = [] := by
    simp [joined, crashesLed]
  have hlanded : (step {} joined (.reply 0 (.ok (.arr [.str "old"])))).1 =
      { crashesShared with
        inflight := joined.inflight.filter (·.1 != crashesSent.flight.key) } := rfl
  rw [hrun, run_crashes_led, hcleared, hjoins, hlanded, hgone]
  rfl

theorem run_clearedMidway : (run {} (State.start {} none none 1000.0) clearedMidway).calls =
    [⟨.finished (.returned crashesOld), false⟩, ⟨.finished (.returned crashesOld), false⟩,
      ⟨.finished (.returned (crashesOld.fromCache crashes)), false⟩] := by
  let waiting : State := { crashesShared with
    calls := [⟨.finished (.returned crashesOld), false⟩,
      ⟨.finished (.returned crashesOld), false⟩, ⟨.ready (.request crashes), false⟩] }
  have hrun : run {} (State.start {} none none 1000.0) clearedMidway =
      run {} (run {} (State.start {} none none 1000.0) (clearedMidway.take 6))
        [.resume 1, .arrive (.request crashes), .resume 2] := rfl
  have hadopts : run {} crashesShared [.resume 1, .arrive (.request crashes), .resume 2] =
      (step {} waiting (.resume 2)).1 := rfl
  have hfound : waiting.cache.stored? (key {} crashes) =
      some (fetchedEntry {} 1000.0 60 crashesSent [.str "old"]) := by
    simp [Cache.stored?, waiting, crashesShared, fetchedEntry, crashesSent, flightOf]
  have hlooked := get?_fresh hfound
  have hcall : waiting.calls[2]? = some ⟨.ready (.request crashes), false⟩ := rfl
  rw [hrun, run_crashes_shared, hadopts]
  have hnow : waiting.now = 1000.0 := rfl
  simp only [step, resume, hcall, requestOf, begin, hnow, hlooked]
  rfl

theorem run_clearedMidway_ready :
    (run {} (State.start {} none none 1000.0) (clearedMidway.take 4)).phase? 1 =
      some (.ready (.request crashes)) := by
  have hrun : run {} (State.start {} none none 1000.0) (clearedMidway.take 4) =
      run {} (run {} (State.start {} none none 1000.0) [.arrive (.request crashes), .resume 0])
        [.cache .clear, .arrive (.request crashes)] := rfl
  rw [hrun, run_crashes_led]
  rfl

theorem run_answeredSince_clearedMidway :
    (run {} (State.start {} none none 1000.0) clearedMidway).outcome? 1 =
      some (.returned crashesOld) ∧
    ∃ fetched, Fetched {} (run {} (State.start {} none none 1000.0) (clearedMidway.take 3))
        (Search.key {} crashes) (clearedMidway.drop 3) fetched ∧
      (crashesOld = fetched ∨ crashesOld = fetched.fromCache crashes) := by
  have houtcome : (run {} (State.start {} none none 1000.0) clearedMidway).outcome? 1 =
      some (.returned crashesOld) := by
    rw [State.outcome?, State.phase?, run_clearedMidway]
    rfl
  have hwrites : ∀ event ∈ clearedMidway.drop 3, event.writes = false := by
    simp [clearedMidway, Event.writes]
  have hsince := @run_answeredSince {} {} none none 1000.0 (clearedMidway.take 2)
    [.arrive (.request crashes)] (clearedMidway.drop 4) .clear 1 (.request crashes) crashes
    crashesOld rfl rfl run_clearedMidway_ready hwrites houtcome
  exact ⟨houtcome, hsince⟩

/-- Two calls begin after their key was invalidated. The one is answered by joining a backend call
that was started before, the other from the cache, in which the answer was stored. -/
theorem clearedMidway_answersOld :
    (∀ key, (Cache.Command.clear : Cache.Command Stored).covers key = true) ∧
    (run {} (State.start {} none none 1000.0) (clearedMidway.take 2)).phase? 0 =
      some (.leading crashesSent) ∧
    (run {} (State.start {} none none 1000.0) (clearedMidway.take 4)).phase? 1 =
      some (.ready (.request crashes)) ∧
    (run {} (State.start {} none none 1000.0) clearedMidway).outcome? 1 =
      some (.returned (resultOf {} 1000.0 crashesSent [.str "old"])) ∧
    (run {} (State.start {} none none 1000.0) clearedMidway).outcome? 2 =
      some (.returned ((resultOf {} 1000.0 crashesSent [.str "old"]).fromCache crashes)) := by
  have hled : run {} (State.start {} none none 1000.0) (clearedMidway.take 2) = crashesLed :=
    run_crashes_led
  refine ⟨fun _ => rfl, ?_, run_clearedMidway_ready, ?_, ?_⟩
  · rw [hled]
    rfl
  · rw [State.outcome?, State.phase?, run_clearedMidway]
    rfl
  · rw [State.outcome?, State.phase?, run_clearedMidway]
    rfl

end Search
end IssueSearch
