import IssueSearch.Proofs.Search.Fetch
import IssueSearch.Proofs.Search.Turn
/-!
How calls end, and which of them were asked to. A call that has ended stays as it is. A call ends as
cancelled exactly if it was asked to end before; any other ends with the outcome of the call that it
follows, with what it makes of the backend's answer to its own call, or before it calls the backend.
-/
namespace IssueSearch.Search

namespace State

/-- A call has arrived and not ended. -/
def Pending (s : State) (id : CallId) : Prop :=
  ∃ phase, s.phase? id = some phase ∧ ∀ outcome, phase ≠ .finished outcome

/-- A call has been asked to end. -/
def Asked (s : State) (id : CallId) : Prop := ∃ phase, s.calls[id]? = some ⟨phase, true⟩

/-- A call has looked its key up. -/
def Begun (s : State) (id : CallId) : Prop :=
  ∃ phase, s.phase? id = some phase ∧ ∀ input, phase ≠ .ready input

theorem Pending.outcome?_eq_none {s : State} {id : CallId} (hpending : s.Pending id) :
    s.outcome? id = none := by
  obtain ⟨phase, hphase, hunended⟩ := hpending
  cases houtcome : s.outcome? id with
  | none => rfl
  | some outcome =>
      rw [outcome?_eq_some_iff.1 houtcome] at hphase
      exact absurd (Option.some.inj hphase).symm (hunended outcome)

end State

variable (search : Search)

/-- What a leader makes of the backend's answer. -/
def conclude (s : State) (sent : Sent) : Except Failure Json → Outcome
  | .error failure => .raised (.backend failure)
  | .ok value =>
      match recordsOf value with
      | none => .raised (.notRecords value)
      | some records =>
          match (search.keep s sent.flight.key (search.resultOf s.now sent records)).1 with
          | .ok _ => .returned (search.resultOf s.now sent records)
          | .error cause => .raised (.cache cause)

/-- The ways in which a call ends. -/
inductive Finishes (s : State) : Event → CallId → Outcome → Prop
  | asked {id : CallId} {phase : Phase} (called : s.calls[id]? = some ⟨phase, true⟩) :
      Finishes s (.resume id) id .cancelled
  /-- Before it has boarded a flight, or as soon as it has the lead of its first. -/
  | early {id : CallId} {input : Input} {outcome : Outcome}
      (called : s.calls[id]? = some ⟨.ready input, false⟩) (uncancelled : outcome ≠ .cancelled) :
      Finishes s (.resume id) id outcome
  | share {id leader : CallId} {flight : Flight} {outcome : Outcome}
      (called : s.calls[id]? = some ⟨.following flight leader, false⟩)
      (ended : s.outcome? leader = some outcome) (uncancelled : outcome ≠ .cancelled) :
      Finishes s (.resume id) id outcome
  /-- As soon as it has the lead of another flight. -/
  | refuse {id leader : CallId} {flight : Flight} {error : SearchError}
      (called : s.calls[id]? = some ⟨.following flight leader, false⟩)
      (ended : s.outcome? leader = some .cancelled)
      (free : s.inflight.lookup flight.key = none)
      (refused : search.Refuses flight.request error) : Finishes s (.resume id) id (.raised error)
  | conclude {id : CallId} {sent : Sent} {answer : Except Failure Json}
      (called : s.calls[id]? = some ⟨.leading sent, false⟩) :
      Finishes s (.reply id answer) id (search.conclude s sent answer)

/-- What an event does to the list of calls. -/
inductive Changes (s : State) (event : Event) (calls : List Call) : Prop
  | keep (same : calls = s.calls)
  | arrive (input : Input) (new : calls = s.calls ++ [{ phase := .ready input }])
  | ask (id : CallId) (asks : event = .cancel id) (asked : calls = (s.cancel id).calls)
  | enter {id : CallId} {call : Call} {phase : Phase} (called : s.calls[id]? = some call)
      (unended : ∀ outcome, call.phase ≠ .finished outcome)
      (entered : calls = (s.enter id phase).calls) (begun : ∀ input, phase ≠ .ready input)
      (finishes : ∀ outcome, phase = .finished outcome → search.Finishes s event id outcome) :
      Changes s event calls

variable {search} {s s' : State} {event : Event}

theorem Changes.of_finish {id : CallId} {call : Call} {outcome : Outcome}
    (hcall : s.calls[id]? = some call) (hunended : ∀ outcome, call.phase ≠ .finished outcome)
    (hcalls : s'.calls = (s.enter id (.finished outcome)).calls)
    (hfinishes : search.Finishes s event id outcome) : search.Changes s event s'.calls := by
  apply Changes.enter hcall hunended hcalls (by simp)
  intro outcome' heq
  cases heq
  exact hfinishes

theorem Boards.changes {cache : Cache Float Stored} {id : CallId} {flight : Flight} {call : Call}
    (hboards : search.Boards { s with cache } id flight s') (hcall : s.calls[id]? = some call)
    (hunended : ∀ outcome, call.phase ≠ .finished outcome)
    (hrefuse : ∀ error, s.inflight.lookup flight.key = none →
      search.Refuses flight.request error → search.Finishes s event id (.raised error)) :
    search.Changes s event s'.calls := by
  cases hboards with
  | join found => exact .enter hcall hunended rfl (by simp) (by simp)
  | lead free valid compiled => exact .enter hcall hunended rfl (by simp) (by simp)
  | refuse free refused => exact .of_finish hcall hunended rfl (hrefuse _ free refused)

theorem Move.changes (hmove : search.Move s event s') : search.Changes s event s'.calls := by
  cases hmove with
  | stay | advance | tell => exact .keep rfl
  | arrive input => exact .arrive input rfl
  | ask id => exact .ask id rfl rfl
  | quit called waiting unended => exact .of_finish called unended rfl (.asked called)
  | refuse called asked => exact .of_finish called (by simp) rfl (.early called (by simp))
  | overflow called asked looked => exact .of_finish called (by simp) rfl (.early called (by simp))
  | hit called asked looked payload =>
      exact .of_finish called (by simp) rfl (.early called (by simp))
  | miss called asked missed boards =>
      exact boards.changes called (by simp) fun error _ _ => .early called (by simp)
  | drop called => exact .of_finish called (by simp) rfl (.asked called)
  | adopt called ended uncancelled =>
      exact .of_finish called (by simp) rfl (.share called ended uncancelled)
  | retry called ended boards =>
      have hboards : search.Boards { s with cache := s.cache } _ _ _ := boards
      exact hboards.changes called (by simp) fun error free refused =>
        .refuse called ended free refused
  | @fail id sent failure called => exact .of_finish called (by simp) rfl (.conclude called)
  | @garble id sent value called answered =>
      apply Changes.of_finish called (by simp) rfl
      have hconclude : Outcome.raised (.notRecords value) =
          search.conclude s sent (.ok value) := by
        simp only [conclude, answered]
      rw [hconclude]
      exact .conclude called
  | @keep id sent value records left log called answered kept =>
      rw [search.keep_frame s kept]
      apply Changes.of_finish called (by simp) rfl
      have hconclude : Outcome.returned (search.resultOf s.now sent records) =
          search.conclude s sent (.ok value) := by
        simp only [conclude, answered, kept]
      rw [hconclude]
      exact .conclude called
  | @lose id sent value records cause left log called answered lost =>
      rw [search.keep_frame s lost]
      apply Changes.of_finish called (by simp) rfl
      have hconclude : Outcome.raised (.cache cause) = search.conclude s sent (.ok value) := by
        simp only [conclude, answered, lost]
      rw [hconclude]
      exact .conclude called

/-! ### What a step keeps of a call -/

/-- A call that comes out of an event in some phase had the phase before, or has just arrived, or
has entered it. -/
theorem Changes.phase? (hchanges : search.Changes s event s'.calls) {id : CallId} {phase : Phase}
    (hphase : s'.phase? id = some phase) :
    s.phase? id = some phase ∨
    (s.phase? id = none ∧ ∃ input, phase = .ready input) ∨
    ((∃ call, s.calls[id]? = some call ∧ ∀ outcome, call.phase ≠ .finished outcome) ∧
      (∀ input, phase ≠ .ready input) ∧
      ∀ outcome, phase = .finished outcome → search.Finishes s event id outcome) := by
  cases hchanges with
  | keep same =>
      rw [State.phase?_eq_of_calls same] at hphase
      exact .inl hphase
  | arrive input new =>
      have hnew : s'.phase? id =
          State.phase? { s with calls := s.calls ++ [{ phase := .ready input }] } id :=
        State.phase?_eq_of_calls new id
      rw [hnew, State.phase?_arrive] at hphase
      split at hphase
      · rename_i heq
        refine .inr (.inl ⟨?_, input, (Option.some.inj hphase).symm⟩)
        simp [State.phase?, heq]
      · exact .inl hphase
  | ask asked asks entered =>
      rw [State.phase?_eq_of_calls entered, State.phase?_cancel] at hphase
      exact .inl hphase
  | @enter entering call phase' called unended entered begun finishes =>
      rw [State.phase?_eq_of_calls entered] at hphase
      by_cases heq : id = entering
      · subst heq
        rw [State.phase?_enter_self called] at hphase
        obtain rfl := Option.some.inj hphase
        exact .inr (.inr ⟨⟨call, called, unended⟩, begun, finishes⟩)
      · rw [State.phase?_enter_of_ne heq] at hphase
        exact .inl hphase

variable (search s event) in
theorem step_changes : search.Changes s event (search.step s event).1.calls :=
  (search.step_move s event).changes

/-- A call that ends in a step finishes in it. -/
theorem finishes_of_step {id : CallId} {outcome : Outcome}
    (houtcome : (search.step s event).1.outcome? id = some outcome) :
    s.outcome? id = some outcome ∨ search.Finishes s event id outcome := by
  rw [State.outcome?_eq_some_iff] at houtcome ⊢
  rcases (search.step_changes s event).phase? houtcome with
    hold | ⟨-, input, heq⟩ | ⟨-, -, hfinishes⟩
  · exact .inl hold
  · cases heq
  · exact .inr (hfinishes outcome rfl)

theorem conclude_ne_cancelled (s : State) (sent : Sent) (answer : Except Failure Json) :
    search.conclude s sent answer ≠ .cancelled := by
  unfold conclude
  split
  · simp
  · split
    · simp
    · split <;> simp

/-- A call that ends, ends as cancelled exactly if it has been asked to end. -/
theorem Finishes.cancelled_iff {id : CallId} {outcome : Outcome}
    (hfinishes : search.Finishes s event id outcome) : outcome = .cancelled ↔ s.Asked id := by
  cases hfinishes with
  | asked called => exact iff_of_true rfl ⟨_, called⟩
  | early called uncancelled => exact iff_of_false uncancelled (by simp [State.Asked, called])
  | share called ended uncancelled => exact iff_of_false uncancelled (by simp [State.Asked, called])
  | refuse called ended free refused => exact iff_of_false (by simp) (by simp [State.Asked, called])
  | conclude called =>
      exact iff_of_false (conclude_ne_cancelled _ _ _) (by simp [State.Asked, called])

theorem Finishes.ne_cancel {id : CallId} {outcome : Outcome}
    (hfinishes : search.Finishes s event id outcome) : event ≠ .cancel id := by
  cases hfinishes <;> simp

/-- A call that has ended stays as it is. -/
theorem outcome?_step {id : CallId} {outcome : Outcome} (houtcome : s.outcome? id = some outcome)
    (event : Event) : (search.step s event).1.outcome? id = some outcome := by
  rw [State.outcome?_eq_some_iff] at houtcome ⊢
  obtain ⟨phase, hphase⟩ := (search.step_move s event).phase?_isSome houtcome
  rcases (search.step_changes s event).phase? hphase with
    hold | ⟨hnone, -⟩ | ⟨⟨call, hcall, hunended⟩, -⟩
  · rw [hphase, ← hold, houtcome]
  · rw [houtcome] at hnone
    cases hnone
  · rw [State.phase?_of_called hcall] at houtcome
    exact absurd (Option.some.inj houtcome) (hunended outcome)

theorem outcome?_run {id : CallId} {outcome : Outcome} (houtcome : s.outcome? id = some outcome)
    (events : List Event) : (search.run s events).outcome? id = some outcome := by
  induction events generalizing s with
  | nil => exact houtcome
  | cons event rest ih => exact ih (outcome?_step houtcome event)

theorem begun_step {id : CallId} (hbegun : s.Begun id) (event : Event) :
    (search.step s event).1.Begun id := by
  obtain ⟨phase, hphase, hready⟩ := hbegun
  obtain ⟨phase', hphase'⟩ := (search.step_move s event).phase?_isSome hphase
  refine ⟨phase', hphase', ?_⟩
  rcases (search.step_changes s event).phase? hphase' with hold | ⟨hnone, -⟩ | ⟨-, hbegun, -⟩
  · rw [hphase] at hold
    rw [← Option.some.inj hold]
    exact hready
  · rw [hphase] at hnone
    cases hnone
  · exact hbegun

theorem begun_run {id : CallId} (hbegun : s.Begun id) (events : List Event) :
    (search.run s events).Begun id := by
  induction events generalizing s with
  | nil => exact hbegun
  | cons event rest ih => exact ih (begun_step hbegun event)

/-! ### Calls that are asked to end -/

namespace State

theorem asked_congr {s s' : State} {id : CallId} (hcalls : s'.calls = s.calls) :
    s'.Asked id ↔ s.Asked id := by
  rw [Asked, Asked, hcalls]

theorem asked_arrive_iff (s : State) (input : Input) (id : CallId) :
    Asked { s with calls := s.calls ++ [{ phase := .ready input }] } id ↔ s.Asked id := by
  rcases Nat.lt_trichotomy id s.calls.length with hlt | rfl | hgt
  · simp [Asked, List.getElem?_append_left hlt]
  · simp [Asked]
  · have hlong : (s.calls ++ [(⟨.ready input, false⟩ : Call)]).length ≤ id := by
      rw [List.length_append]
      exact hgt
    simp only [Asked, List.getElem?_eq_none hlong, List.getElem?_eq_none (Nat.le_of_lt hgt)]

theorem asked_enter_iff (s : State) (entering : CallId) (phase : Phase) (id : CallId) :
    (s.enter entering phase).Asked id ↔ s.Asked id := by
  simp only [Asked, enter, List.getElem?_modify]
  cases hcall : s.calls[id]? with
  | none => simp
  | some call =>
      rcases call with ⟨old, requested⟩
      by_cases heq : entering = id
      · simp [heq]
      · simp [heq]

theorem asked_cancel_iff (s : State) (asked id : CallId) :
    (s.cancel asked).Asked id ↔ s.Asked id ∨ asked = id ∧ s.Pending id := by
  simp only [Asked, Pending, phase?, cancel, List.getElem?_modify]
  cases hcall : s.calls[id]? with
  | none => simp
  | some call =>
      rcases call with ⟨phase, requested⟩
      by_cases heq : asked = id
      · cases phase <;> simp [heq]
      · simp [heq]

end State

theorem asked_step_iff (s : State) (event : Event) (id : CallId) :
    (search.step s event).1.Asked id ↔ s.Asked id ∨ event = .cancel id ∧ s.Pending id := by
  by_cases hcancel : ∃ asked, event = .cancel asked
  · obtain ⟨asked, rfl⟩ := hcancel
    rw [Event.cancel.injEq]
    exact s.asked_cancel_iff asked id
  · have hnot : ¬ (event = .cancel id ∧ s.Pending id) := fun hid => hcancel ⟨id, hid.1⟩
    rw [or_iff_left hnot]
    cases search.step_changes s event with
    | keep same => exact State.asked_congr same
    | arrive input new => exact (State.asked_congr new).trans (s.asked_arrive_iff input id)
    | ask asked asks entered => exact absurd ⟨asked, asks⟩ hcancel
    | enter called unended entered begun finishes =>
        exact (State.asked_congr entered).trans (s.asked_enter_iff _ _ id)

/-- A call that has arrived and not ended is asked to end in the course of some events. -/
def AskedToEnd (search : Search) (start : State) (events : List Event) (id : CallId) : Prop :=
  ∃ before after, events = before ++ .cancel id :: after ∧ (search.run start before).Pending id

theorem askedToEnd_concat_iff {start : State} {events : List Event} {id : CallId} :
    search.AskedToEnd start (events ++ [event]) id ↔
      search.AskedToEnd start events id ∨
        event = .cancel id ∧ (search.run start events).Pending id := by
  constructor
  · rintro ⟨before, after, hsplit, hpending⟩
    rcases List.eq_nil_or_concat after with rfl | ⟨rest, final, rfl⟩
    · obtain ⟨rfl, hlast⟩ := List.append_inj' hsplit rfl
      exact .inr ⟨List.singleton_inj.1 hlast, hpending⟩
    · rw [List.concat_eq_append, ← List.cons_append, ← List.append_assoc] at hsplit
      obtain ⟨rfl, -⟩ := List.append_inj' hsplit rfl
      exact .inl ⟨before, rest, rfl, hpending⟩
  · rintro (⟨before, after, rfl, hpending⟩ | ⟨rfl, hpending⟩)
    · exact ⟨before, after ++ [event], by simp, hpending⟩
    · exact ⟨events, [], rfl, hpending⟩

/-- The calls marked are those that were asked to end. -/
theorem run_asked_iff {start : State} (hnew : start.calls = []) (events : List Event)
    (id : CallId) : (search.run start events).Asked id ↔ search.AskedToEnd start events id := by
  induction events using List.reverseRecOn with
  | nil =>
      apply iff_of_false
      · simp [run, State.Asked, hnew]
      · rintro ⟨before, after, hsplit, -⟩
        simp at hsplit
  | append_singleton events event ih =>
      rw [run_concat, asked_step_iff, askedToEnd_concat_iff, ih]

theorem called_of_unasked {start : State} (hnew : start.calls = []) {events : List Event}
    {id : CallId} {phase : Phase} (hunasked : ¬ search.AskedToEnd start events id)
    (hphase : (search.run start events).phase? id = some phase) :
    (search.run start events).calls[id]? = some ⟨phase, false⟩ := by
  obtain ⟨⟨phase, requested⟩, hcall, rfl⟩ := Option.map_eq_some_iff.1 hphase
  cases requested with
  | false => exact hcall
  | true => exact absurd ((run_asked_iff hnew events id).1 ⟨_, hcall⟩) hunasked

/-- A call ends as cancelled exactly if it was asked to end. -/
theorem run_cancelled_iff {start : State} (hnew : start.calls = []) (events : List Event) :
    ∀ id outcome, (search.run start events).outcome? id = some outcome →
      (outcome = .cancelled ↔ (search.run start events).Asked id) := by
  induction events using List.reverseRecOn with
  | nil =>
      intro id outcome houtcome
      simp [run, State.outcome?, State.phase?, hnew] at houtcome
  | append_singleton events event ih =>
      intro id outcome houtcome
      rw [run_concat] at houtcome ⊢
      rw [asked_step_iff]
      rcases finishes_of_step houtcome with hold | hfinishes
      · have hended : ¬ (search.run start events).Pending id := by
          intro hpending
          rw [hpending.outcome?_eq_none] at hold
          cases hold
        rw [or_iff_left fun hasked => hended hasked.2]
        exact ih id outcome hold
      · rw [or_iff_left fun hasked => hfinishes.ne_cancel hasked.1]
        exact hfinishes.cancelled_iff

theorem ne_cancelled_of_unasked {start : State} (hnew : start.calls = []) {events : List Event}
    {id : CallId} {outcome : Outcome} (hunasked : ¬ search.AskedToEnd start events id)
    (houtcome : (search.run start events).outcome? id = some outcome) : outcome ≠ .cancelled := by
  rw [ne_eq, run_cancelled_iff hnew events id outcome houtcome, run_asked_iff hnew]
  exact hunasked

end IssueSearch.Search
