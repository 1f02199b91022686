import IssueSearch.Proofs.Search.Ending
import IssueSearch.Proofs.Search.Hits
/-!
Calls that wait keep out of the way. A call that nobody follows is not seen by steps that do not
address it, and a call that waits for its leader changes nothing but itself until that leader has
been cancelled. So it makes no difference to any other call whether a waiting call is asked to end.
-/
namespace IssueSearch.Search

namespace State

/-- The state with a call replaced. -/
def put (s : State) (id : CallId) (call : Call) : State := { s with calls := s.calls.set id call }

variable (s : State) {id other : CallId} (call : Call)

theorem modify_set_comm (calls : List Call) (hne : other ≠ id) (f : Call → Call) :
    (calls.set id call).modify other f = (calls.modify other f).set id call := by
  apply List.ext_getElem?
  intro place
  simp only [List.getElem?_modify, List.getElem?_set, List.length_modify]
  by_cases hid : id = place
  · subst hid
    by_cases hlt : id < calls.length
    · simp [hne, hlt]
    · simp [hlt]
  · simp [hid]

theorem enter_put (hne : other ≠ id) (phase : Phase) :
    (s.put id call).enter other phase = (s.enter other phase).put id call := by
  simp only [enter, put, modify_set_comm call s.calls hne]

theorem cancel_put (hne : other ≠ id) :
    (s.put id call).cancel other = (s.cancel other).put id call := by
  simp only [cancel, put, modify_set_comm call s.calls hne]

theorem land_put (hne : other ≠ id) (flight : Flight) (outcome : Outcome) :
    ((s.put id call).land other flight outcome).1 =
      ((s.land other flight outcome).1).put id call := by
  have henter := enter_put { s with inflight := s.inflight.filter (·.1 != flight.key) } call hne
    (.finished outcome)
  have hland : ((s.put id call).land other flight outcome).1 =
      (({ s with inflight := s.inflight.filter (·.1 != flight.key) }.put id call).enter other
        (.finished outcome) |>.account flight (.ofOutcome outcome)).1 := rfl
  rw [hland, henter]
  rfl

theorem getElem?_put_of_ne (hne : other ≠ id) : (s.put id call).calls[other]? = s.calls[other]? :=
  List.getElem?_set_ne hne.symm

theorem getElem?_put_self (hlt : id < s.calls.length) :
    (s.put id call).calls[id]? = some call := by
  simp [put, hlt]

theorem put_self {s : State} {call : Call} (hcall : s.calls[id]? = some call) :
    s.put id call = s := by
  obtain ⟨hlt, hget⟩ := List.getElem?_eq_some_iff.1 hcall
  simp only [put, ← hget, List.set_getElem_self]

theorem outcome?_put_of_ne (hne : other ≠ id) :
    (s.put id call).outcome? other = s.outcome? other := by
  rw [outcome?, outcome?, phase?, phase?, s.getElem?_put_of_ne call hne]

end State

variable {search : Search} {s : State} {id other : CallId} (call : Call)

theorem lead_put (hne : other ≠ id) (flight : Flight) :
    (search.lead (s.put id call) other flight).1 =
      (search.lead s other flight).1.put id call := by
  have hflight : { s.put id call with
      inflight := (flight.key, other) :: (s.put id call).inflight } =
      State.put { s with inflight := (flight.key, other) :: s.inflight } id call := rfl
  simp only [lead, hflight]
  split
  · split
    · exact State.enter_put _ call hne _
    · exact State.land_put _ call hne flight _
  · exact State.land_put _ call hne flight _

theorem board_put (hne : other ≠ id) (flight : Flight) :
    (search.board (s.put id call) other flight).1 =
      (search.board s other flight).1.put id call := by
  have hinflight : (s.put id call).inflight = s.inflight := rfl
  simp only [board, hinflight]
  split
  · exact State.enter_put _ call hne _
  · exact lead_put call hne flight

theorem begin_put (hne : other ≠ id) (r : Request) :
    (search.begin (s.put id call) other r).1 = (search.begin s other r).1.put id call := by
  have hcache : (s.put id call).cache = s.cache := rfl
  have hnow : (s.put id call).now = s.now := rfl
  simp only [begin, hcache, hnow]
  split
  · exact s.enter_put call hne _
  · rename_i found left hlooked
    split
    · exact board_put (s := { s with cache := left }) call hne _
    · rename_i entry
      split
      · have henter := State.enter_put { s with cache := left } call hne
        exact congrArg (fun s : State => (s.account (search.flightOf r s.now) .hit).1) (henter _)
      · exact board_put (s := { s with cache := (left.erase (search.key r)).2 }) call hne _

theorem keep_put (key : String) (result : SearchResult) :
    search.keep (s.put id call) key result =
      ((search.keep s key result).1, (search.keep s key result).2.1.put id call,
        (search.keep s key result).2.2) := by
  have hcache : (s.put id call).cache = s.cache := rfl
  have hnow : (s.put id call).now = s.now := rfl
  simp only [keep, hcache, hnow]
  split
  · rfl
  · split
    · split <;> rfl
    · rfl

theorem reply_put (hne : other ≠ id) (answer : Except Failure Json) :
    (search.reply (s.put id call) other answer).1 =
      (search.reply s other answer).1.put id call := by
  have hnow : (s.put id call).now = s.now := rfl
  simp only [reply, s.getElem?_put_of_ne call hne, hnow, keep_put]
  split
  · split
    · exact State.land_put _ call hne _ _
    · split
      · exact State.land_put _ call hne _ _
      · exact State.land_put _ call hne _ _
  · rfl

theorem resume_put (hne : other ≠ id)
    (hunfollowed : ∀ flight, s.phase? other ≠ some (.following flight id)) :
    (search.resume (s.put id call) other).1 = (search.resume s other).1.put id call := by
  simp only [resume, s.getElem?_put_of_ne call hne]
  split
  · rfl
  · rename_i called hcalled
    split
    · exact State.enter_put _ call hne _
    · split
      · exact begin_put call hne _
      · exact State.enter_put _ call hne _
    · exact State.land_put _ call hne _ _
    · rfl
    · exact State.enter_put _ call hne _
    · rename_i flight leader hphase hrequested
      have hleader : leader ≠ id := by
        rintro rfl
        apply hunfollowed flight
        rw [State.phase?_of_called hcalled, hphase]
      rw [s.outcome?_put_of_ne call hleader]
      split
      · rfl
      · exact board_put call hne flight
      · exact State.enter_put _ call hne _
    · rfl

/-- An event that lets one call go on, or asks it to end. -/
def Event.addresses : Event → CallId → Prop
  | .resume other, id | .reply other _, id | .cancel other, id => other = id
  | .arrive _, _ | .advance _, _ | .cache _, _ => False

variable (search) in
/-- A step that does not address a call which nobody follows does not see it. -/
theorem step_put {event : Event} (hlt : id < s.calls.length) (haddresses : ¬ event.addresses id)
    (hunfollowed : ∀ other flight, s.phase? other ≠ some (.following flight id)) :
    (search.step (s.put id call) event).1 = (search.step s event).1.put id call := by
  cases event with
  | arrive input => simp [step, State.put, List.set_append_left, hlt]
  | resume other => exact resume_put call haddresses (hunfollowed other)
  | reply other answer => exact reply_put call haddresses answer
  | cancel other => exact s.cancel_put call haddresses
  | advance seconds => rfl
  | cache command => rfl

/-! ### A call that waits -/

/-- A call follows a leader or has ended. -/
def Call.Waits (call : Call) (leader : CallId) : Prop :=
  (∃ flight, call.phase = .following flight leader) ∨ ∃ outcome, call.phase = .finished outcome

omit call in
variable (search) in
/-- Until its leader has been cancelled, a call that waits changes nothing but itself. -/
theorem step_waiting {call : Call} {leader : CallId} {event : Event}
    (hcall : s.calls[id]? = some call) (hwaits : call.Waits leader)
    (hleader : s.outcome? leader ≠ some .cancelled) (haddresses : event.addresses id) :
    ∃ call', call'.Waits leader ∧ (search.step s event).1 = s.put id call' := by
  have hsame : s = s.put id call := (State.put_self hcall).symm
  have henter : ∀ outcome, (s.enter id (.finished outcome)) =
      s.put id ⟨.finished outcome, call.cancelRequested⟩ := by
    intro outcome
    simp only [State.enter, State.put, List.modify_eq_set_getElem?, hcall]
    rfl
  rcases call with ⟨phase, requested⟩
  cases event with
  | arrive | advance | cache => exact haddresses.elim
  | cancel other =>
      obtain rfl : other = id := haddresses
      rcases hwaits with ⟨flight, rfl⟩ | ⟨outcome, rfl⟩
      · refine ⟨⟨.following flight leader, true⟩, .inl ⟨flight, rfl⟩, ?_⟩
        simp only [step, State.cancel, State.put, List.modify_eq_set_getElem?, hcall]
        rfl
      · refine ⟨⟨.finished outcome, requested⟩, .inr ⟨outcome, rfl⟩, ?_⟩
        simp only [step, State.cancel, State.put, List.modify_eq_set_getElem?, hcall]
        rfl
  | reply other answer =>
      obtain rfl : other = id := haddresses
      refine ⟨⟨phase, requested⟩, hwaits, ?_⟩
      rw [← hsame]
      rcases hwaits with ⟨flight, rfl⟩ | ⟨outcome, rfl⟩
      · simp only [step, reply, hcall]
      · simp only [step, reply, hcall]
  | resume other =>
      obtain rfl : other = id := haddresses
      rcases hwaits with ⟨flight, rfl⟩ | ⟨outcome, rfl⟩
      · cases requested with
        | true =>
            refine ⟨⟨.finished .cancelled, true⟩, .inr ⟨.cancelled, rfl⟩, ?_⟩
            simp only [step, resume, hcall]
            exact henter .cancelled
        | false =>
            rcases hended : s.outcome? leader with _ | outcome
            · refine ⟨⟨.following flight leader, false⟩, .inl ⟨flight, rfl⟩, ?_⟩
              simp only [step, resume, hcall, hended]
              exact hsame
            · refine ⟨⟨.finished outcome, false⟩, .inr ⟨outcome, rfl⟩, ?_⟩
              rw [← henter]
              cases outcome with
              | cancelled => exact absurd hended hleader
              | returned result => simp only [step, resume, hcall, hended]
              | raised error => simp only [step, resume, hcall, hended]
      · refine ⟨⟨.finished outcome, requested⟩, .inr ⟨outcome, rfl⟩, ?_⟩
        simp only [step, resume, hcall]
        exact hsame

/-- A call that waits, or has waited, for a leader, and that nobody waits for. The call given may
take its place. -/
structure Aside (s : State) (id leader : CallId) (call : Call) : Prop where
  called : ∃ old, s.calls[id]? = some old ∧ old.Waits leader
  waits : call.Waits leader
  leader_ne : leader ≠ id
  unfollowed : ∀ other flight, s.phase? other ≠ some (.following flight id)
  flights : s.SingleFlight

namespace Aside

variable {call} {leader : CallId}

theorem outcome?_put (haside : Aside s id leader call) :
    (s.put id call).outcome? leader = s.outcome? leader :=
  s.outcome?_put_of_ne call haside.leader_ne

variable (search) in
/-- Nobody comes to follow a call that waits. -/
theorem unfollowed_step (haside : Aside s id leader call) (event : Event) (other : CallId)
    (flight : Flight) : (search.step s event).1.phase? other ≠ some (.following flight id) := by
  intro hphase
  obtain ⟨old, hold, hwaits⟩ := haside.called
  rcases (search.step_move s event).turn hphase with hsame | hturn
  · exact haside.unfollowed other flight hsame
  · cases hturn with
    | follow brings found =>
        have hleads := (haside.flights.lookup_iff flight.key id).1 found
        apply State.not_leads_of_phase? (State.phase?_of_called hold) _ flight.key hleads
        intro sent hleading
        rcases hwaits with ⟨flight', hphase'⟩ | ⟨outcome, hphase'⟩
        · rw [hphase'] at hleading
          cases hleading
        · rw [hphase'] at hleading
          cases hleading

variable (search) in
/-- Both states take the same step, but for the call. -/
theorem step (haside : Aside s id leader call) (event : Event)
    (hleader : s.outcome? leader ≠ some .cancelled) :
    ∃ call', (search.step (s.put id call) event).1 = (search.step s event).1.put id call' ∧
      Aside (search.step s event).1 id leader call' := by
  obtain ⟨old, hold, hwaits⟩ := haside.called
  obtain ⟨hlt, -⟩ := List.getElem?_eq_some_iff.1 hold
  have hflights := (search.step_move s event).shift.singleFlight haside.flights
  have hunfollowed := haside.unfollowed_step search event
  by_cases haddresses : event.addresses id
  · have hleader' : (s.put id call).outcome? leader ≠ some .cancelled := by
      rw [haside.outcome?_put]
      exact hleader
    obtain ⟨old', hwaits', hkept⟩ := step_waiting search hold hwaits hleader haddresses
    obtain ⟨call', hcall', hcut⟩ := step_waiting search
      (s.getElem?_put_self call hlt) haside.waits hleader' haddresses
    refine ⟨call', ?_, ?_⟩
    · rw [hkept, hcut]
      simp only [State.put, List.set_set]
    · refine ⟨⟨old', ?_, hwaits'⟩, hcall', haside.leader_ne, hunfollowed, hflights⟩
      rw [hkept]
      exact s.getElem?_put_self old' hlt
  · have hkept : (search.step s event).1 = (search.step s event).1.put id old := by
      have hstep := step_put search old hlt haddresses haside.unfollowed
      rw [State.put_self hold] at hstep
      exact hstep
    refine ⟨call, step_put search call hlt haddresses haside.unfollowed, ?_⟩
    refine ⟨⟨old, ?_, hwaits⟩, haside.waits, haside.leader_ne, hunfollowed, hflights⟩
    rw [hkept]
    apply State.getElem?_put_self
    exact Nat.lt_of_lt_of_le hlt (search.step_move s event).calls_length

variable (search) in
/-- So do they in a run. The leader does not notice, and until it has been cancelled nobody does. -/
theorem run (haside : Aside s id leader call) (events : List Event) :
    (search.run (s.put id call) events).phase? leader = (search.run s events).phase? leader ∧
    ((search.run s events).outcome? leader ≠ some .cancelled →
      ∃ call', search.run (s.put id call) events = (search.run s events).put id call') := by
  induction events generalizing s call with
  | nil =>
      refine ⟨?_, fun _ => ⟨call, rfl⟩⟩
      rw [run, run, List.foldl_nil, List.foldl_nil, State.phase?, State.phase?,
        s.getElem?_put_of_ne call haside.leader_ne]
  | cons event rest ih =>
      by_cases hleader : s.outcome? leader = some .cancelled
      · have hkept : (search.run s (event :: rest)).outcome? leader = some .cancelled :=
          outcome?_run hleader _
        have hcut : (search.run (s.put id call) (event :: rest)).outcome? leader =
            some .cancelled := outcome?_run (haside.outcome?_put.trans hleader) _
        refine ⟨?_, fun hnot => absurd hkept hnot⟩
        rw [State.outcome?_eq_some_iff.1 hkept, State.outcome?_eq_some_iff.1 hcut]
      · obtain ⟨call', hstep, haside'⟩ := haside.step search event hleader
        have hrun : search.run (s.put id call) (event :: rest) =
            search.run ((search.step s event).1.put id call') rest := by
          rw [← hstep]
          rfl
        rw [hrun]
        exact ih haside'

end Aside

/-- Whether a waiting call is asked to end makes no difference to its leader, nor to any other call
unless the leader is cancelled. -/
theorem run_cancel_waiting {start : State} (hnew : start.calls = []) (hidle : start.inflight = [])
    (events later : List Event) {leader : CallId} {flight : Flight}
    (hphase : (search.run start events).phase? id = some (.following flight leader)) :
    (search.run start (events ++ .cancel id :: later)).phase? leader =
      (search.run start (events ++ later)).phase? leader ∧
    ((search.run start (events ++ later)).outcome? leader ≠ some .cancelled →
      ∃ call, search.run start (events ++ .cancel id :: later) =
        (search.run start (events ++ later)).put id call) := by
  rw [run_append, run_append]
  generalize hs : search.run start events = s at hphase ⊢
  have hflights : s.SingleFlight := by
    rw [← hs]
    exact run_singleFlight events (State.singleFlight_of_idle hnew hidle)
  have hunfollowed : ∀ other flight, s.phase? other ≠ some (.following flight id) := by
    intro other flight' hfollowing
    rw [← hs] at hfollowing hphase
    obtain ⟨phase, hleader, hled⟩ := run_followsLed hnew hidle events other flight' id hfollowing
    rw [hphase] at hleader
    rw [← Option.some.inj hleader] at hled
    exact hled
  obtain ⟨⟨phase, requested⟩, hcall, rfl⟩ := Option.map_eq_some_iff.1 hphase
  have hwaits : ∀ requested, (⟨.following flight leader, requested⟩ : Call).Waits leader :=
    fun requested => .inl ⟨flight, rfl⟩
  have hleader : leader ≠ id := by
    rintro rfl
    exact hunfollowed leader flight hphase
  have hcut : search.run s (.cancel id :: later) =
      search.run (s.put id ⟨.following flight leader, true⟩) later := by
    have hcancel : s.cancel id = s.put id ⟨.following flight leader, true⟩ := by
      simp only [State.cancel, State.put, List.modify_eq_set_getElem?, hcall]
      rfl
    rw [← hcancel]
    rfl
  rw [hcut]
  exact Aside.run search
    ⟨⟨_, hcall, hwaits requested⟩, hwaits true, hleader, hunfollowed, hflights⟩ later

end IssueSearch.Search
