import IssueSearch.Proofs.Search.Isolation
/-!
Calls for one key share one outcome. A call that joins a flight ends with the outcome of the last
leader that it has joined, or with that of its own execution if it has come to lead. Only calls that
are asked to end, end as cancelled, and a call that is asked to end while it waits disturbs neither
its leader nor the other followers.
-/
namespace IssueSearch.Search

variable (search : Search) (start : State)

/-- A call follows a leader at some point of a run. -/
def Joins (events : List Event) (id : CallId) : Prop :=
  ∃ earlier later flight leader, events = earlier ++ later ∧
    (search.run start earlier).phase? id = some (.following flight leader)

/-- How a call that has joined a flight comes by its outcome. -/
inductive Obtains (events : List Event) (id : CallId) (outcome : Outcome) : Prop
  /-- It takes the outcome of the leader that it follows to the last. -/
  | shared {earlier later : List Event} {flight : Flight} {leader : CallId}
      (split : events = earlier ++ .resume id :: later)
      (followed : (search.run start earlier).phase? id = some (.following flight leader))
      (ended : (search.run start earlier).outcome? leader = some outcome)
      (stands : (search.run start events).outcome? leader = some outcome)
  /-- It leads, and takes in the backend's answer. -/
  | own {earlier later : List Event} {sent : Sent} {answer : Except Failure Json}
      (split : events = earlier ++ .reply id answer :: later)
      (led : (search.run start earlier).phase? id = some (.leading sent))
      (concluded : outcome = search.conclude (search.run start earlier) sent answer)
  /-- Its leader is cancelled, and it is refused when it takes the lead. -/
  | refused {earlier later : List Event} {flight : Flight} {leader : CallId} {error : SearchError}
      (split : events = earlier ++ .resume id :: later)
      (followed : (search.run start earlier).phase? id = some (.following flight leader))
      (ended : (search.run start earlier).outcome? leader = some .cancelled)
      (free : (search.run start earlier).inflight.lookup flight.key = none)
      (refused : search.Refuses flight.request error) (raised : outcome = .raised error)

variable {search start} {events : List Event} {event : Event} {id : CallId}

theorem Joins.begun (hjoins : search.Joins start events id) :
    (search.run start events).Begun id := by
  obtain ⟨earlier, later, flight, leader, rfl, hphase⟩ := hjoins
  rw [run_append]
  exact begun_run ⟨_, hphase, by simp⟩ later

/-- A call that has ended by the last event of a run has joined a flight before. -/
theorem Joins.of_concat {outcome : Outcome} (hjoins : search.Joins start (events ++ [event]) id)
    (houtcome : (search.run start (events ++ [event])).outcome? id = some outcome) :
    search.Joins start events id := by
  obtain ⟨earlier, later, flight, leader, hsplit, hphase⟩ := hjoins
  rcases List.eq_nil_or_concat later with rfl | ⟨rest, final, rfl⟩
  · rw [List.append_nil] at hsplit
    rw [← hsplit, State.outcome?_eq_some_iff.1 houtcome] at hphase
    cases hphase
  · rw [List.concat_eq_append, ← List.append_assoc] at hsplit
    obtain ⟨rfl, -⟩ := List.append_inj' hsplit rfl
    exact ⟨earlier, rest, flight, leader, rfl, hphase⟩

theorem Obtains.concat {outcome : Outcome} (hobtains : search.Obtains start events id outcome)
    (event : Event) : search.Obtains start (events ++ [event]) id outcome := by
  cases hobtains with
  | @shared earlier later flight leader split followed ended stands =>
      have hsplit : events ++ [event] = earlier ++ .resume id :: (later ++ [event]) := by
        simp [split]
      refine .shared hsplit followed ended ?_
      rw [run_concat]
      exact outcome?_step stands event
  | @own earlier later sent answer split led concluded =>
      have hsplit : events ++ [event] = earlier ++ .reply id answer :: (later ++ [event]) := by
        simp [split]
      exact .own hsplit led concluded
  | @refused earlier later flight leader error split followed ended free refused raised =>
      have hsplit : events ++ [event] = earlier ++ .resume id :: (later ++ [event]) := by
        simp [split]
      exact .refused hsplit followed ended free refused raised

/-- A call that joins a flight and is not asked to end obtains its outcome in one of these ways. -/
theorem run_obtains {outcome : Outcome} (hjoins : search.Joins start events id)
    (hasked : ¬ (search.run start events).Asked id)
    (houtcome : (search.run start events).outcome? id = some outcome) :
    search.Obtains start events id outcome := by
  induction events using List.reverseRecOn with
  | nil =>
      obtain ⟨earlier, later, flight, leader, hsplit, hphase⟩ := hjoins
      obtain ⟨rfl, rfl⟩ := List.append_eq_nil_iff.1 hsplit.symm
      rw [State.outcome?_eq_some_iff.1 houtcome] at hphase
      cases hphase
  | append_singleton events event ih =>
      have hbefore := hjoins.of_concat houtcome
      rw [run_concat] at hasked houtcome
      have hunasked : ¬ (search.run start events).Asked id :=
        fun h => hasked ((asked_step_iff _ event id).2 (.inl h))
      rcases finishes_of_step houtcome with hold | hfinishes
      · exact (ih hbefore hunasked hold).concat event
      · cases hfinishes with
        | asked called => exact absurd ⟨_, called⟩ hunasked
        | early called uncancelled =>
            obtain ⟨phase, hphase, hready⟩ := hbefore.begun
            rw [State.phase?_of_called called] at hphase
            exact absurd (Option.some.inj hphase).symm (hready _)
        | share called ended uncancelled =>
            refine .shared rfl (State.phase?_of_called called) ended ?_
            rw [run_concat]
            exact outcome?_step ended _
        | refuse called ended free refused =>
            exact .refused rfl (State.phase?_of_called called) ended free refused rfl
        | conclude called => exact .own rfl (State.phase?_of_called called) rfl

/-! ### How calls go on -/

variable {s : State}

/-- A leader leads on until it ends. -/
theorem leads_step {key : String} (hleads : s.Leads id key) (event : Event) :
    (search.step s event).1.Leads id key ∨
      ∃ outcome, (search.step s event).1.outcome? id = some outcome := by
  cases (search.step_move s event).shift with
  | keeps flights leads => exact .inl ((leads id key).2 hleads)
  | opens other key' free idle flights led others =>
      have hne : id ≠ other := by
        rintro rfl
        exact idle key hleads
      exact .inl ((others id hne key).2 hleads)
  | closes other key' outcome led flights ended others =>
      by_cases hid : id = other
      · exact .inr ⟨outcome, State.outcome?_eq_some_iff.2 (hid ▸ ended)⟩
      · exact .inl ((others id hid key).2 hleads)

/-- Whoever is followed leads the flight or has ended. -/
theorem run_followed (hflights : start.SingleFlight) (hnew : start.calls = [])
    (events : List Event) : ∀ id flight leader,
      (search.run start events).phase? id = some (.following flight leader) →
      (search.run start events).Leads leader flight.key ∨
        ∃ outcome, (search.run start events).outcome? leader = some outcome := by
  induction events using List.reverseRecOn with
  | nil =>
      intro id flight leader hphase
      simp [run, State.phase?, hnew] at hphase
  | append_singleton events event ih =>
      intro id flight leader hphase
      rw [run_concat] at hphase ⊢
      rcases (search.step_move _ event).turn hphase with hold | hturn
      · rcases ih id flight leader hold with hleads | ⟨outcome, hended⟩
        · exact leads_step hleads event
        · exact .inr ⟨outcome, outcome?_step hended event⟩
      · cases hturn with
        | follow brings found =>
            exact leads_step
              (((run_singleFlight events hflights).lookup_iff flight.key leader).1 found) _

/-- A follower whose leader was cancelled joins another flight, takes the lead, or is refused. -/
theorem resume_reboards {flight : Flight} {leader : CallId}
    (hcall : s.calls[id]? = some ⟨.following flight leader, false⟩)
    (hended : s.outcome? leader = some .cancelled) :
    search.Boards s id flight (search.step s (.resume id)).1 := by
  simp only [step, resume, hcall, hended]
  exact search.board_boards s id flight

theorem resume_adopts {flight : Flight} {leader : CallId} {outcome : Outcome}
    (hcall : s.calls[id]? = some ⟨.following flight leader, false⟩)
    (hended : s.outcome? leader = some outcome) (huncancelled : outcome ≠ .cancelled) :
    (search.step s (.resume id)).1.outcome? id = some outcome := by
  rw [State.outcome?_eq_some_iff, ← State.phase?_enter_self hcall (.finished outcome)]
  cases outcome with
  | cancelled => exact absurd rfl huncancelled
  | returned result => simp only [step, resume, hcall, hended]
  | raised error => simp only [step, resume, hcall, hended]

theorem outcome?_land {call : Call} (hcall : s.calls[id]? = some call) (flight : Flight)
    (outcome : Outcome) : (s.land id flight outcome).1.outcome? id = some outcome := by
  rw [State.outcome?_eq_some_iff, ← State.phase?_enter_self hcall (.finished outcome)]
  exact State.phase?_eq_of_calls (State.calls_land _ _ _ _) id

theorem resume_asked (hasked : s.Asked id) (hended : s.outcome? id = none) :
    (search.step s (.resume id)).1.outcome? id = some .cancelled := by
  obtain ⟨phase, hcall⟩ := hasked
  have henter : (s.enter id (.finished .cancelled)).outcome? id = some .cancelled :=
    State.outcome?_eq_some_iff.2 (State.phase?_enter_self hcall _)
  cases phase with
  | ready input => simpa only [step, resume, hcall] using henter
  | leading sent =>
      simpa only [step, resume, hcall] using outcome?_land hcall sent.flight .cancelled
  | following flight leader => simpa only [step, resume, hcall] using henter
  | finished outcome =>
      rw [State.outcome?, State.phase?_of_called hcall] at hended
      cases hended

/-- Whatever the backend answers ends the leader, and leaves the other calls as they are. -/
theorem calls_reply {sent : Sent} (hcall : s.calls[id]? = some ⟨.leading sent, false⟩)
    (answer : Except Failure Json) : (search.step s (.reply id answer)).1.calls =
      (s.enter id (.finished (search.conclude s sent answer))).calls := by
  simp only [step, reply, hcall, conclude]
  cases answer with
  | error failure => rfl
  | ok value =>
      cases hanswered : recordsOf value with
      | none =>
          simp only [hanswered]
          rfl
      | some records =>
          rcases hkeep : search.keep s sent.flight.key (search.resultOf s.now sent records) with
            ⟨kept, left, log⟩
          have hcalls : left.calls = s.calls := by rw [search.keep_frame s hkeep]
          cases kept with
          | error cause => simp only [hanswered, hkeep, State.calls_land, State.enter, hcalls]
          | ok done => simp only [hanswered, hkeep, State.calls_land, State.enter, hcalls]

theorem reply_concludes {sent : Sent} (hcall : s.calls[id]? = some ⟨.leading sent, false⟩)
    (answer : Except Failure Json) : (search.step s (.reply id answer)).1.outcome? id =
      some (search.conclude s sent answer) := by
  rw [State.outcome?_eq_some_iff, State.phase?_eq_of_calls (calls_reply hcall answer),
    State.phase?_enter_self hcall]

/-- What sharing a flight promises of a run. -/
structure Coalesces (search : Search) (start : State) (events : List Event) : Prop where
  /-- A call that is asked to end ends as cancelled, the next time that it goes on if not before. -/
  asked : ∀ id, search.AskedToEnd start events id →
    (search.run start events).outcome? id = some .cancelled ∨
      (search.run start events).outcome? id = none ∧
        (search.run start (events ++ [.resume id])).outcome? id = some .cancelled
  /-- No other does, whatever other calls are asked. -/
  unasked : ∀ id, ¬ search.AskedToEnd start events id →
    (search.run start events).outcome? id ≠ some .cancelled
  /-- A call that joins a flight obtains its outcome there or by its own execution. -/
  obtains : ∀ id outcome, search.Joins start events id → ¬ search.AskedToEnd start events id →
    (search.run start events).outcome? id = some outcome →
      search.Obtains start events id outcome
  /-- Whoever is followed leads the flight or has ended. -/
  followed : ∀ id flight leader,
    (search.run start events).phase? id = some (.following flight leader) →
      (search.run start events).Leads leader flight.key ∨
        ∃ outcome, (search.run start events).outcome? leader = some outcome
  /-- A leader ends when the backend answers. -/
  concludes : ∀ id sent answer, ¬ search.AskedToEnd start events id →
    (search.run start events).phase? id = some (.leading sent) →
      (search.run start (events ++ [.reply id answer])).outcome? id =
        some (search.conclude (search.run start events) sent answer)
  /-- A follower whose leader has ended on its own ends the same way when it goes on. -/
  adopts : ∀ id flight leader outcome, ¬ search.AskedToEnd start events id →
    (search.run start events).phase? id = some (.following flight leader) →
    (search.run start events).outcome? leader = some outcome → outcome ≠ .cancelled →
      (search.run start (events ++ [.resume id])).outcome? id = some outcome
  /-- A follower whose leader was cancelled joins another flight, takes the lead, or is refused. -/
  reboards : ∀ id flight leader, ¬ search.AskedToEnd start events id →
    (search.run start events).phase? id = some (.following flight leader) →
    (search.run start events).outcome? leader = some .cancelled →
      search.Boards (search.run start events) id flight
        (search.run start (events ++ [.resume id]))
  /-- Whether a waiting call is asked to end makes no difference to its leader, nor to any other
  call unless the leader is cancelled. -/
  isolated : ∀ id flight leader later,
    (search.run start events).phase? id = some (.following flight leader) →
      (search.run start (events ++ .cancel id :: later)).phase? leader =
        (search.run start (events ++ later)).phase? leader ∧
      ((search.run start (events ++ later)).outcome? leader ≠ some .cancelled →
        ∃ call, search.run start (events ++ .cancel id :: later) =
          (search.run start (events ++ later)).put id call)

/-- Calls are coalesced and isolated from each other in whatever order they arrive, go on, are
answered and are asked to end. -/
theorem run_coalesces (search : Search) (cache : Cache Float Stored) (monitor : Option Monitor)
    (metrics : Option Metrics) (now : Float) (events : List Event) :
    Coalesces search (State.start cache monitor metrics now) events := by
  have hnew : (State.start cache monitor metrics now).calls = [] := rfl
  have hidle : (State.start cache monitor metrics now).inflight = [] := rfl
  generalize State.start cache monitor metrics now = start at *
  constructor
  · intro id hasked
    rw [← run_asked_iff hnew] at hasked
    cases houtcome : (search.run start events).outcome? id with
    | none =>
        rw [run_concat]
        exact .inr ⟨rfl, resume_asked hasked houtcome⟩
    | some outcome =>
        rw [(run_cancelled_iff hnew events id outcome houtcome).2 hasked]
        exact .inl rfl
  · intro id hunasked houtcome
    exact ne_cancelled_of_unasked hnew hunasked houtcome rfl
  · intro id outcome hjoins hunasked houtcome
    rw [← run_asked_iff hnew] at hunasked
    exact run_obtains hjoins hunasked houtcome
  · exact run_followed (State.singleFlight_of_idle hnew hidle) hnew events
  · intro id sent answer hunasked hphase
    rw [run_concat]
    exact reply_concludes (called_of_unasked hnew hunasked hphase) answer
  · intro id flight leader outcome hunasked hphase hended huncancelled
    rw [run_concat]
    exact resume_adopts (called_of_unasked hnew hunasked hphase) hended huncancelled
  · intro id flight leader hunasked hphase hended
    rw [run_concat]
    exact resume_reboards (called_of_unasked hnew hunasked hphase) hended
  · intro id flight leader later hphase
    exact run_cancel_waiting hnew hidle events later hphase

end IssueSearch.Search
