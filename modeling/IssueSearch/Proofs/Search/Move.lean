import IssueSearch.Search.Step
/-!
What one step can do. `Move` lists the ways in which an event changes searches, each with what was
the case before it; `step_move` says that the list is complete. What holds of every run is proved
by the cases of `Move`, never by unfolding a step again.
-/
namespace IssueSearch.Search

namespace State

variable (s : State) (id : CallId) (flight : Flight)

@[simp]
theorem calls_account (account : Account) : (s.account flight account).1.calls = s.calls := rfl

@[simp]
theorem inflight_account (account : Account) :
    (s.account flight account).1.inflight = s.inflight := rfl

@[simp]
theorem cache_account (account : Account) : (s.account flight account).1.cache = s.cache := rfl

@[simp]
theorem now_account (account : Account) : (s.account flight account).1.now = s.now := rfl

@[simp]
theorem calls_land (outcome : Outcome) :
    (s.land id flight outcome).1.calls = (s.enter id (.finished outcome)).calls := rfl

@[simp]
theorem inflight_land (outcome : Outcome) :
    (s.land id flight outcome).1.inflight = s.inflight.filter (·.1 != flight.key) := rfl

@[simp]
theorem cache_land (outcome : Outcome) : (s.land id flight outcome).1.cache = s.cache := rfl

@[simp]
theorem now_land (outcome : Outcome) : (s.land id flight outcome).1.now = s.now := rfl

theorem phase?_eq_of_calls {s s' : State} (hcalls : s'.calls = s.calls) (id : CallId) :
    s'.phase? id = s.phase? id := by
  rw [phase?, phase?, hcalls]

theorem phase?_of_called {s : State} {id : CallId} {call : Call}
    (hcall : s.calls[id]? = some call) : s.phase? id = some call.phase := by
  rw [phase?, hcall]
  rfl

theorem phase?_enter_self {s : State} {id : CallId} {call : Call}
    (hcall : s.calls[id]? = some call) (phase : Phase) :
    (s.enter id phase).phase? id = some phase := by
  simp [phase?, enter, hcall]

theorem phase?_enter_of_ne {s : State} {id other : CallId} (hne : other ≠ id) (phase : Phase) :
    (s.enter id phase).phase? other = s.phase? other := by
  simp [phase?, enter, Ne.symm hne]

theorem phase?_arrive (s : State) (call : Call) (id : CallId) :
    { s with calls := s.calls ++ [call] }.phase? id =
      if id = s.calls.length then some call.phase else s.phase? id := by
  rcases Nat.lt_trichotomy id s.calls.length with hlt | rfl | hgt
  · rw [if_neg (Nat.ne_of_lt hlt)]
    simp [phase?, List.getElem?_append_left hlt]
  · simp [phase?]
  · rw [if_neg (Nat.ne_of_gt hgt)]
    have hlong : (s.calls ++ [call]).length ≤ id := by
      rw [List.length_append]
      exact hgt
    simp only [phase?, List.getElem?_eq_none hlong, List.getElem?_eq_none (Nat.le_of_lt hgt)]

theorem phase?_cancel (s : State) (asked id : CallId) :
    (s.cancel asked).phase? id = s.phase? id := by
  simp only [phase?, cancel, List.getElem?_modify]
  cases hcall : s.calls[id]? with
  | none => simp
  | some call =>
      by_cases heq : asked = id
      · cases hphase : call.phase <;> simp [heq, hphase]
      · simp [heq]

theorem outcome?_eq_some_iff {s : State} {id : CallId} {outcome : Outcome} :
    s.outcome? id = some outcome ↔ s.phase? id = some (.finished outcome) := by
  rw [outcome?]
  split
  · rename_i ended hphase
    simp [hphase]
  · rename_i hother
    refine iff_of_false (by simp) fun hphase => ?_
    exact hother outcome hphase

/-- A state that no call has come to yet. -/
def start (cache : Cache Float Stored) (monitor : Option Monitor) (metrics : Option Metrics)
    (now : Float) : State :=
  { cache, monitor, metrics, now }

end State

variable (search : Search) (s : State)

/-- Why a leader ends before it calls the backend: the checks found errors, or the request has no
query text. -/
inductive Refuses (r : Request) : SearchError → Prop
  | rejected (invalid : (Validation.ofRequest search.checks r).valid = false) :
      Refuses r (.rejected (Validation.ofRequest search.checks r).errors
        (Validation.ofRequest search.checks r).warnings)
  | uncompilable {cause : ClauseError}
      (valid : (Validation.ofRequest search.checks r).valid = true)
      (uncompiled : Query.ofRequest search.grammar r = .error cause) :
      Refuses r (.uncompilable cause)

/-- What boarding can come to: a call joins the flight of its key, or takes the lead of a key
without flight and sends its query, or is refused as soon as it has the lead. -/
inductive Boards (s : State) (id : CallId) (flight : Flight) : State → Prop
  | join {leader : CallId} (found : s.inflight.lookup flight.key = some leader) :
      Boards s id flight (s.enter id (.following flight leader))
  | lead {query : Query} (free : s.inflight.lookup flight.key = none)
      (valid : (Validation.ofRequest search.checks flight.request).valid = true)
      (compiled : Query.ofRequest search.grammar flight.request = .ok query) :
      Boards s id flight
        ({ s with inflight := (flight.key, id) :: s.inflight }.enter id (.leading {
          flight, query
          call := search.backendCall flight.request query
          warnings := (Validation.ofRequest search.checks flight.request).warnings ++ query.warnings
          sentAt := s.now }))
  | refuse {error : SearchError} (free : s.inflight.lookup flight.key = none)
      (refused : search.Refuses flight.request error) :
      Boards s id flight
        ({ s with inflight := (flight.key, id) :: s.inflight }.land id flight (.raised error)).1

theorem lead_boards (id : CallId) (flight : Flight)
    (hfree : s.inflight.lookup flight.key = none) :
    search.Boards s id flight (search.lead s id flight).1 := by
  cases hvalid : (Validation.ofRequest search.checks flight.request).valid with
  | false =>
      simp only [lead, hvalid]
      exact .refuse hfree (.rejected hvalid)
  | true =>
      rcases hcompiled : Query.compile search.grammar flight.request with ⟨warned, compiled⟩
      cases compiled with
      | error e =>
          simp only [lead, hvalid, hcompiled, ↓reduceIte]
          exact .refuse hfree (.uncompilable hvalid (by rw [Query.ofRequest, hcompiled]))
      | ok query =>
          simp only [lead, hvalid, hcompiled, ↓reduceIte]
          exact .lead hfree hvalid (by rw [Query.ofRequest, hcompiled])

theorem board_boards (id : CallId) (flight : Flight) :
    search.Boards s id flight (search.board s id flight).1 := by
  unfold board
  cases hleader : s.inflight.lookup flight.key with
  | some leader => exact .join hleader
  | none => exact search.lead_boards s id flight hleader

/-- What looking a key up leaves of the cache if there is no result of ours under the key: a value
that is none of ours is thrown out. -/
inductive Misses (cache : Cache Float Stored) (now : Float) (key : String) :
    Cache Float Stored → Prop
  | absent {left : Cache Float Stored} (looked : cache.get? now key = .ok (none, left)) :
      Misses cache now key left
  | thrown {left : Cache Float Stored} {entry : Cache.Entry Float Stored} {value : Json}
      (looked : cache.get? now key = .ok (some entry, left))
      (payload : entry.payload = .foreign value) :
      Misses cache now key (left.erase key).2

/-- The flight that a call boards when it begins at some time. -/
def flightOf (r : Request) (now : Float) : Flight :=
  { key := search.key r, request := r, start := now }

/-- Every way in which an event changes searches. -/
inductive Move (s : State) : Event → State → Prop
  /-- An event that does not apply. -/
  | stay {event : Event} : Move s event s
  | arrive (input : Input) :
      Move s (.arrive input) { s with calls := s.calls ++ [{ phase := .ready input }] }
  | ask (id : CallId) : Move s (.cancel id) (s.cancel id)
  | advance (seconds : Float) : Move s (.advance seconds) { s with now := s.now + seconds }
  | tell (command : Cache.Command Stored) :
      Move s (.cache command) { s with cache := (s.cache.step s.now command).2.1 }
  /-- A call that was asked to end before it had the lead of a flight. -/
  | quit {id : CallId} {phase : Phase} (called : s.calls[id]? = some ⟨phase, true⟩)
      (waiting : ∀ sent, phase ≠ .leading sent) (unended : ∀ outcome, phase ≠ .finished outcome) :
      Move s (.resume id) (s.enter id (.finished .cancelled))
  /-- A call that hands over no request. -/
  | refuse {id : CallId} {input : Input} {error : SearchError}
      (called : s.calls[id]? = some ⟨.ready input, false⟩)
      (asked : search.requestOf input = .error error) :
      Move s (.resume id) (s.enter id (.finished (.raised error)))
  /-- A call whose key cannot be looked up. -/
  | overflow {id : CallId} {input : Input} {r : Request} {cause : Overflow}
      (called : s.calls[id]? = some ⟨.ready input, false⟩)
      (asked : search.requestOf input = .ok r)
      (looked : s.cache.get? s.now (search.key r) = .error cause) :
      Move s (.resume id) (s.enter id (.finished (.raised (.cache (.overflow cause)))))
  | hit {id : CallId} {input : Input} {r : Request} {entry : Cache.Entry Float Stored}
      {stored : SearchResult} {left : Cache Float Stored}
      (called : s.calls[id]? = some ⟨.ready input, false⟩)
      (asked : search.requestOf input = .ok r)
      (looked : s.cache.get? s.now (search.key r) = .ok (some entry, left))
      (payload : entry.payload = .result stored) :
      Move s (.resume id)
        (({ s with cache := left }.enter id (.finished (.returned (stored.fromCache r)))).account
          (search.flightOf r s.now) .hit).1
  | miss {id : CallId} {input : Input} {r : Request} {left : Cache Float Stored} {s' : State}
      (called : s.calls[id]? = some ⟨.ready input, false⟩)
      (asked : search.requestOf input = .ok r)
      (missed : Misses s.cache s.now (search.key r) left)
      (boards : search.Boards { s with cache := left } id (search.flightOf r s.now) s') :
      Move s (.resume id) s'
  /-- A leader that was asked to end. -/
  | drop {id : CallId} {sent : Sent} (called : s.calls[id]? = some ⟨.leading sent, true⟩) :
      Move s (.resume id) (s.land id sent.flight .cancelled).1
  /-- A follower takes what its leader ended with. -/
  | adopt {id leader : CallId} {flight : Flight} {outcome : Outcome}
      (called : s.calls[id]? = some ⟨.following flight leader, false⟩)
      (ended : s.outcome? leader = some outcome) (uncancelled : outcome ≠ .cancelled) :
      Move s (.resume id) (s.enter id (.finished outcome))
  /-- A follower whose leader was cancelled boards again. -/
  | retry {id leader : CallId} {flight : Flight} {s' : State}
      (called : s.calls[id]? = some ⟨.following flight leader, false⟩)
      (ended : s.outcome? leader = some .cancelled)
      (boards : search.Boards s id flight s') :
      Move s (.resume id) s'
  | fail {id : CallId} {sent : Sent} {failure : Failure}
      (called : s.calls[id]? = some ⟨.leading sent, false⟩) :
      Move s (.reply id (.error failure)) (s.land id sent.flight (.raised (.backend failure))).1
  /-- The backend answers with something that is no sequence of records. -/
  | garble {id : CallId} {sent : Sent} {value : Json}
      (called : s.calls[id]? = some ⟨.leading sent, false⟩)
      (answered : recordsOf value = none) :
      Move s (.reply id (.ok value)) (s.land id sent.flight (.raised (.notRecords value))).1
  /-- The backend answers with records, which the cache keeps. -/
  | keep {id : CallId} {sent : Sent} {value : Json} {records : List Json} {s' : State}
      {log : List LogRecord} (called : s.calls[id]? = some ⟨.leading sent, false⟩)
      (answered : recordsOf value = some records)
      (kept : search.keep s sent.flight.key (search.resultOf s.now sent records) =
        (.ok (), s', log)) :
      Move s (.reply id (.ok value))
        (s'.land id sent.flight (.returned (search.resultOf s.now sent records))).1
  /-- The backend answers with records, but the cache does not keep them or fails to sweep. -/
  | lose {id : CallId} {sent : Sent} {value : Json} {records : List Json} {cause : Cache.Error}
      {s' : State} {log : List LogRecord} (called : s.calls[id]? = some ⟨.leading sent, false⟩)
      (answered : recordsOf value = some records)
      (lost : search.keep s sent.flight.key (search.resultOf s.now sent records) =
        (.error cause, s', log)) :
      Move s (.reply id (.ok value)) (s'.land id sent.flight (.raised (.cache cause))).1

/-- Keeping a result changes nothing but the cache. -/
theorem keep_frame {key : String} {result : SearchResult} {kept : Except Cache.Error Unit}
    {s' : State} {log : List LogRecord}
    (hkeep : search.keep s key result = (kept, s', log)) :
    s' = { s with cache := s'.cache } := by
  simp only [keep] at hkeep
  split at hkeep
  · cases hkeep
    rfl
  · split at hkeep
    · split at hkeep <;> cases hkeep <;> rfl
    · cases hkeep
      rfl

theorem begin_move {id : CallId} {input : Input} {r : Request}
    (hcall : s.calls[id]? = some ⟨.ready input, false⟩)
    (hasked : search.requestOf input = .ok r) :
    search.Move s (.resume id) (search.begin s id r).1 := by
  have hflight : { key := search.key r, request := r, start := s.now } =
    search.flightOf r s.now := rfl
  cases hlooked : s.cache.get? s.now (search.key r) with
  | error cause =>
      simp only [begin, hlooked]
      exact .overflow hcall hasked hlooked
  | ok found =>
      rcases found with ⟨_ | entry, left⟩
      · simp only [begin, hflight, hlooked]
        exact .miss hcall hasked (.absent hlooked) (search.board_boards _ id _)
      · cases hpayload : entry.payload with
        | result stored =>
            simp only [begin, hflight, hlooked, hpayload]
            exact .hit hcall hasked hlooked hpayload
        | foreign value =>
            simp only [begin, hflight, hlooked, hpayload]
            exact .miss hcall hasked (.thrown hlooked hpayload) (search.board_boards _ id _)

theorem resume_move (id : CallId) : search.Move s (.resume id) (search.resume s id).1 := by
  cases hcall : s.calls[id]? with
  | none =>
      simp only [resume, hcall]
      exact .stay
  | some call =>
      rcases call with ⟨phase, requested⟩
      cases phase with
      | ready input =>
          cases requested with
          | true =>
              simp only [resume, hcall]
              exact .quit hcall (by simp) (by simp)
          | false =>
              cases hasked : search.requestOf input with
              | error e =>
                  simp only [resume, hcall, hasked]
                  exact .refuse hcall hasked
              | ok r =>
                  simp only [resume, hcall, hasked]
                  exact search.begin_move s hcall hasked
      | leading sent =>
          cases requested with
          | true =>
              simp only [resume, hcall]
              exact .drop hcall
          | false =>
              simp only [resume, hcall]
              exact .stay
      | following flight leader =>
          cases requested with
          | true =>
              simp only [resume, hcall]
              exact .quit hcall (by simp) (by simp)
          | false =>
              rcases hended : s.outcome? leader with _ | outcome
              · simp only [resume, hcall, hended]
                exact .stay
              · cases outcome with
                | cancelled =>
                    simp only [resume, hcall, hended]
                    exact .retry hcall hended (search.board_boards s id flight)
                | returned result =>
                    simp only [resume, hcall, hended]
                    exact .adopt hcall hended (by simp)
                | raised error =>
                    simp only [resume, hcall, hended]
                    exact .adopt hcall hended (by simp)
      | finished outcome =>
          simp only [resume, hcall]
          exact .stay

theorem reply_move (id : CallId) (answer : Except Failure Json) :
    search.Move s (.reply id answer) (search.reply s id answer).1 := by
  rcases hcall : s.calls[id]? with _ | ⟨phase, requested⟩
  · simp only [reply, hcall]
    exact .stay
  · cases phase with
    | leading sent =>
        cases requested with
        | true =>
            simp only [reply, hcall]
            exact .stay
        | false =>
            cases answer with
            | error failure =>
                simp only [reply, hcall]
                exact .fail hcall
            | ok value =>
                cases hanswered : recordsOf value with
                | none =>
                    simp only [reply, hcall, hanswered]
                    exact .garble hcall hanswered
                | some records =>
                    rcases hkept : search.keep s sent.flight.key
                      (search.resultOf s.now sent records) with ⟨_ | ⟨⟩, s', log⟩
                    · simp only [reply, hcall, hanswered, hkept]
                      exact .lose hcall hanswered hkept
                    · simp only [reply, hcall, hanswered, hkept]
                      exact .keep hcall hanswered hkept
    | ready input =>
        simp only [reply, hcall]
        exact .stay
    | following flight leader =>
        simp only [reply, hcall]
        exact .stay
    | finished outcome =>
        simp only [reply, hcall]
        exact .stay

/-- Every step is one of the listed moves. -/
theorem step_move (event : Event) : search.Move s event (search.step s event).1 := by
  cases event with
  | arrive input => exact .arrive input
  | resume id => exact search.resume_move s id
  | reply id answer => exact search.reply_move s id answer
  | cancel id => exact .ask id
  | advance seconds => exact .advance seconds
  | cache command => exact .tell command

end IssueSearch.Search
