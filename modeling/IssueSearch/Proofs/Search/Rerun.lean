import IssueSearch.Proofs.Search.Coalescing
import IssueSearch.Proofs.Search.Looking
/-!
When a backend call is started although its result is held. A call looks its key up once, when it
begins. If its leader is cancelled it boards again without another look, so that it may start a
backend call for a key under which another call has stored a result in the meantime.

Only such calls do. While the call that came first still leads, the others follow it, and nobody
else starts a backend call for the key.
-/
namespace IssueSearch.Search

variable (search : Search)

/-- A call takes the lead of a flight, and so starts a backend call. -/
def Starts (s : State) (event : Event) (id : CallId) (sent : Sent) : Prop :=
  (∀ sent, s.phase? id ≠ some (.leading sent)) ∧
    (search.step s event).1.phase? id = some (.leading sent)

variable {search} {s s' : State} {event : Event} {id : CallId}

theorem Starts.brings {sent : Sent} (hstarts : search.Starts s event id sent) :
    event = .resume id ∧ search.Brings s id sent.flight := by
  rcases (search.step_move s event).turn hstarts.2 with hold | hturn
  · exact absurd hold (hstarts.1 sent)
  · exact hturn.brings rfl

/-- A backend call is started for a key without flight only. -/
theorem Starts.free {sent : Sent} (hstarts : search.Starts s event id sent) :
    s.inflight.lookup sent.flight.key = none := by
  have hidle : ∀ key, ¬ s.Leads id key := fun key ⟨sent, hphase, _⟩ => hstarts.1 sent hphase
  have hleads : (search.step s event).1.Leads id sent.flight.key := ⟨sent, hstarts.2, rfl⟩
  cases (search.step_move s event).shift with
  | keeps flights leads => exact absurd ((leads _ _).1 hleads) (hidle _)
  | opens other key free idle flights led others =>
      by_cases hid : id = other
      · subst hid
        rw [hleads.key_unique led]
        exact free
      · exact absurd ((others id hid _).1 hleads) (hidle _)
  | closes other key outcome led flights ended others =>
      by_cases hid : id = other
      · subst hid
        rw [hstarts.2] at ended
        cases ended
      · exact absurd ((others id hid _).1 hleads) (hidle _)

/-! ### Who runs again -/

/-- A follower boards the flight of whoever leads its key by now. -/
theorem resume_joins (hflights : s.SingleFlight) {other leader : CallId} {flight : Flight}
    (hcall : s.calls[other]? = some ⟨.following flight leader, false⟩)
    (hended : s.outcome? leader = some .cancelled) (hleads : s.Leads id flight.key) :
    (search.step s (.resume other)).1.phase? other = some (.following flight id) := by
  have hlookup := (hflights.lookup_iff flight.key id).2 hleads
  have hboards : search.Boards s other flight (search.step s (.resume other)).1 :=
    resume_reboards hcall hended
  generalize (search.step s (.resume other)).1 = s' at hboards ⊢
  cases hboards with
  | join found =>
      rw [hlookup] at found
      cases found
      exact State.phase?_enter_self hcall _
  | lead free valid compiled =>
      rw [hlookup] at free
      cases free
  | refuse free refused =>
      rw [hlookup] at free
      cases free

/-- If nobody leads its key, it takes the lead, unless its request is refused. -/
theorem resume_leads (hflights : s.SingleFlight) {leader : CallId} {flight : Flight}
    (hcall : s.calls[id]? = some ⟨.following flight leader, false⟩)
    (hended : s.outcome? leader = some .cancelled) (hfree : ∀ other, ¬ s.Leads other flight.key) :
    (search.step s (.resume id)).1.Leads id flight.key ∨
      ∃ error, search.Refuses flight.request error ∧
        (search.step s (.resume id)).1.outcome? id = some (.raised error) := by
  have hboards : search.Boards s id flight (search.step s (.resume id)).1 :=
    resume_reboards hcall hended
  generalize (search.step s (.resume id)).1 = s' at hboards ⊢
  cases hboards with
  | @join other found => exact absurd ((hflights.lookup_iff flight.key other).1 found) (hfree other)
  | lead free valid compiled => exact .inl ⟨_, State.phase?_enter_self hcall _, rfl⟩
  | refuse free refused => exact .inr ⟨_, refused, outcome?_land hcall flight _⟩

/-- A follower goes on following, or ends as its leader has ended or as cancelled, or its leader has
been cancelled. -/
theorem step_follower {flight : Flight} {other : CallId}
    (hphase : s.phase? other = some (.following flight id)) (event : Event) :
    (search.step s event).1.phase? other = some (.following flight id) ∨
    s.outcome? id = some .cancelled ∨
    ∃ ended, (search.step s event).1.outcome? other = some ended ∧
      (ended = .cancelled ∨ s.outcome? id = some ended) := by
  have hcalled : ∀ {phase requested}, s.calls[other]? = some ⟨phase, requested⟩ →
      phase = .following flight id := by
    intro phase requested hcall
    rw [State.phase?_of_called hcall] at hphase
    exact Option.some.inj hphase
  have hmove := search.step_move s event
  obtain ⟨phase, hnext⟩ := hmove.phase?_isSome hphase
  rcases hmove.turn hnext with hold | hturn
  · rw [hphase] at hold
    rw [hnext, ← hold]
    exact .inl rfl
  · cases hflight : phase.flight? with
    | some flight' =>
        obtain ⟨-, hbrings⟩ := hturn.brings hflight
        cases hbrings with
        | fresh called asked => cases hcalled called
        | again called ended =>
            cases hcalled called
            exact .inr (.inl ended)
    | none =>
        cases phase with
        | ready input =>
            have hbegun : (search.step s event).1.Begun other :=
              begun_step ⟨_, hphase, by simp⟩ event
            obtain ⟨phase', hphase', hready⟩ := hbegun
            rw [hnext] at hphase'
            exact absurd (Option.some.inj hphase').symm (hready input)
        | following | leading => cases hflight
        | finished outcome =>
            have houtcome := State.outcome?_eq_some_iff.2 hnext
            rcases finishes_of_step houtcome with hold | hfinishes
            · rw [State.outcome?_eq_some_iff, hphase] at hold
              cases hold
            · refine .inr ?_
              cases hfinishes with
              | asked called => exact .inr ⟨_, houtcome, .inl rfl⟩
              | early called uncancelled => cases hcalled called
              | share called ended uncancelled =>
                  cases hcalled called
                  exact .inr ⟨_, houtcome, .inr ended⟩
              | refuse called ended free refused =>
                  cases hcalled called
                  exact .inl ended
              | conclude called => cases hcalled called

theorem run_follower {flight : Flight} {other : CallId}
    (hphase : s.phase? other = some (.following flight id)) (later : List Event) :
    (search.run s later).phase? other = some (.following flight id) ∨
    (search.run s later).outcome? id = some .cancelled ∨
    ∃ ended, (search.run s later).outcome? other = some ended ∧
      (ended = .cancelled ∨ (search.run s later).outcome? id = some ended) := by
  induction later using List.reverseRecOn with
  | nil => exact .inl hphase
  | append_singleton later event ih =>
      rw [run_concat]
      rcases ih with hfollows | hcancelled | ⟨ended, hended, hsame⟩
      · rcases step_follower hfollows event with hnext | hcancelled | ⟨ended, hended, hsame⟩
        · exact .inl hnext
        · exact .inr (.inl (outcome?_step hcancelled event))
        · exact .inr (.inr ⟨ended, hended, hsame.imp_right fun h => outcome?_step h event⟩)
      · exact .inr (.inl (outcome?_step hcancelled event))
      · exact .inr (.inr ⟨ended, outcome?_step hended event,
          hsame.imp_right fun h => outcome?_step h event⟩)

variable (search) in
/-- A call outdates its lookup: its leader was cancelled, and since the call has looked the key up
something has been stored under it. -/
structure Outdated (start : State) (events : List Event) (id : CallId) (flight : Flight) :
    Prop where
  left : ∃ leader, (search.run start events).phase? id = some (.following flight leader) ∧
    (search.run start events).outcome? leader = some .cancelled
  stored : ∃ earlier between event later input,
    events = earlier ++ .resume id :: (between ++ event :: later) ∧
    (search.run start earlier).calls[id]? = some ⟨.ready input, false⟩ ∧
    Stores (search.run start (earlier ++ .resume id :: between)) event flight.key

/-- What a run promises about backend calls for one key. -/
structure Reruns (search : Search) (start : State) (events : List Event) : Prop where
  /-- A backend call is not started while its result is held, unless the lookup of the call that
  starts it is outdated. -/
  outdated : ∀ event id sent, search.Starts (search.run start events) event id sent →
    (search.run start events).Holds sent.flight.key →
      search.Outdated start events id sent.flight
  /-- While a call leads, no other starts a backend call for the key. -/
  alone : ∀ event id other sent key, (search.run start events).Leads id key →
    search.Starts (search.run start events) event other sent → sent.flight.key ≠ key
  /-- A follower of a cancelled leader that goes on while nobody leads takes the lead, unless its
  request is refused. -/
  leads : ∀ id flight leader, ¬ search.AskedToEnd start events id →
    (search.run start events).phase? id = some (.following flight leader) →
    (search.run start events).outcome? leader = some .cancelled →
    (∀ other, ¬ (search.run start events).Leads other flight.key) →
      (search.run start (events ++ [.resume id])).Leads id flight.key ∨
        ∃ error, search.Refuses flight.request error ∧
          (search.run start (events ++ [.resume id])).outcome? id = some (.raised error)
  /-- Meanwhile the other followers join the one that leads by now. -/
  joins : ∀ id other flight leader, ¬ search.AskedToEnd start events other →
    (search.run start events).phase? other = some (.following flight leader) →
    (search.run start events).outcome? leader = some .cancelled →
    (search.run start events).Leads id flight.key →
      (search.run start (events ++ [.resume other])).phase? other = some (.following flight id)
  /-- Unless that one is cancelled too, they end with its outcome. -/
  served : ∀ id other flight later outcome ended,
    (search.run start events).phase? other = some (.following flight id) →
    ¬ search.AskedToEnd start (events ++ later) other →
    (search.run start (events ++ later)).outcome? id = some outcome → outcome ≠ .cancelled →
    (search.run start (events ++ later)).outcome? other = some ended → ended = outcome

theorem run_outdated {start : State} (hnew : start.calls = []) (events : List Event)
    {sent : Sent} (hstarts : search.Starts (search.run start events) event id sent)
    (hholds : (search.run start events).Holds sent.flight.key) :
    search.Outdated start events id sent.flight := by
  obtain ⟨rfl, hbrings⟩ := hstarts.brings
  have hmove := search.step_move (search.run start events) (.resume id)
  generalize hflight : sent.flight = flight at *
  cases hbrings with
  | fresh called asked =>
      exact absurd hholds (hmove.misses called hstarts.2 (congrArg some hflight)).not_holds
  | @again flight leader called ended =>
      have hphase := State.phase?_of_called called
      refine ⟨⟨leader, hphase, ended⟩, ?_⟩
      obtain ⟨earlier, later, input, rfl, hready, hlacks⟩ :=
        run_looked hnew events id _ _ hphase rfl
      rw [List.append_cons, run_append] at hholds
      obtain ⟨between, event, after, rfl, hstores⟩ := run_stores hlacks hholds
      refine ⟨earlier, between, event, after, input, rfl, hready, ?_⟩
      rw [List.append_cons, run_append]
      exact hstores

/-- Backend calls are started again for cause only, whatever the order in which calls arrive, go on,
are answered and are asked to end. -/
theorem run_reruns (search : Search) (cache : Cache Float Stored) (monitor : Option Monitor)
    (metrics : Option Metrics) (now : Float) (events : List Event) :
    Reruns search (State.start cache monitor metrics now) events := by
  have hnew : (State.start cache monitor metrics now).calls = [] := rfl
  have hidle : (State.start cache monitor metrics now).inflight = [] := rfl
  generalize State.start cache monitor metrics now = start at *
  have hflights : (search.run start events).SingleFlight :=
    run_singleFlight events (State.singleFlight_of_idle hnew hidle)
  constructor
  · intro event id sent hstarts hholds
    exact run_outdated hnew events hstarts hholds
  · rintro event id other sent key hleads hstarts rfl
    have hfree := hstarts.free
    rw [(hflights.lookup_iff _ _).2 hleads] at hfree
    cases hfree
  · intro id flight leader hunasked hphase hended hfree
    rw [run_concat]
    exact resume_leads hflights (called_of_unasked hnew hunasked hphase) hended hfree
  · intro id other flight leader hunasked hphase hended hleads
    rw [run_concat]
    exact resume_joins hflights (called_of_unasked hnew hunasked hphase) hended hleads
  · intro id other flight later outcome ended hphase hunasked houtcome huncancelled hended
    have hnot : ended ≠ .cancelled := ne_cancelled_of_unasked hnew hunasked hended
    rw [run_append] at houtcome hended
    rcases run_follower hphase later with hfollows | hcancelled | ⟨ended', hended', hsame⟩
    · rw [State.outcome?_eq_some_iff, hfollows] at hended
      cases hended
    · rw [houtcome] at hcancelled
      exact absurd (Option.some.inj hcancelled) huncancelled
    · rw [hended] at hended'
      obtain rfl := Option.some.inj hended'
      have hshared := hsame.resolve_left hnot
      rw [houtcome] at hshared
      exact (Option.some.inj hshared).symm

/-- Three calls for one key: the first leads, the others follow. -/
def crashesBoarded : State :=
  { crashesLed with
    cache := { crashesLed.cache with counters.misses := 3 }
    calls := [⟨.leading crashesSent, false⟩, ⟨.following crashesSent.flight 0, false⟩,
      ⟨.following crashesSent.flight 0, false⟩] }

theorem run_crashes_boarded : run {} (State.start {} none none 1000.0)
    [.arrive (.request crashes), .arrive (.request crashes), .arrive (.request crashes),
      .resume 0, .resume 1, .resume 2] = crashesBoarded := by
  let ready : Call := ⟨.ready (.request crashes), false⟩
  let follower : Call := ⟨.following crashesSent.flight 0, false⟩
  let led (calls : List Call) (misses : Nat) : State := {
    cache := { counters.misses := misses }
    calls := ⟨.leading crashesSent, false⟩ :: calls
    inflight := [(crashesSent.flight.key, 0)]
    now := 1000.0 }
  have hfirst : (step {} { cache := {}, calls := [ready, ready, ready], now := 1000.0 }
      (.resume 0)).1 = led [ready, ready] 1 := by
    rw [resume_crashes rfl rfl rfl, board_crashes rfl rfl]
    rfl
  have hsecond : (step {} (led [ready, ready] 1) (.resume 1)).1 = led [follower, ready] 2 := by
    rw [resume_crashes rfl rfl rfl, board_crashes_led rfl]
    rfl
  have hthird : (step {} (led [follower, ready] 2) (.resume 2)).1 = led [follower, follower] 3 := by
    rw [resume_crashes rfl rfl rfl, board_crashes_led rfl]
    rfl
  have hrun : run {} (State.start {} none none 1000.0)
      [.arrive (.request crashes), .arrive (.request crashes), .arrive (.request crashes),
        .resume 0, .resume 1, .resume 2] =
      (step {} (step {} (step {} { cache := {}, calls := [ready, ready, ready], now := 1000.0 }
        (.resume 0)).1 (.resume 1)).1 (.resume 2)).1 := rfl
  rw [hrun, hfirst, hsecond, hthird]
  rfl

/-- The leader is cancelled, the first follower runs again and is answered at once. -/
def crashesRerun : List Event := [
  .arrive (.request crashes), .arrive (.request crashes), .arrive (.request crashes),
  .resume 0, .resume 1, .resume 2,
  .cancel 0, .resume 0, .resume 1, .reply 1 (.ok (.arr []))]

def crashesHeld : State :=
  { crashesLanded with
    cache := { crashesLanded.cache with counters.misses := 3 }
    calls := [⟨.finished .cancelled, true⟩, ⟨.finished (.returned crashesFound), false⟩,
      ⟨.following crashesSent.flight 0, false⟩] }

theorem run_crashesRerun :
    run {} (State.start {} none none 1000.0) crashesRerun = crashesHeld := by
  let left (first second : Call) (flights : List (String × CallId)) : State :=
    { crashesBoarded with
      calls := [first, second, ⟨.following crashesSent.flight 0, false⟩]
      inflight := flights }
  have hgone : ∀ id, [(crashesSent.flight.key, id)].filter (·.1 != crashesSent.flight.key) =
      ([] : List (String × CallId)) := by simp
  have hdropped : (step {} (crashesBoarded.cancel 0) (.resume 0)).1 =
      left ⟨.finished .cancelled, true⟩ ⟨.following crashesSent.flight 0, false⟩ [] := by
    rw [← hgone 0]
    rfl
  have hretried : (step {} (left ⟨.finished .cancelled, true⟩
      ⟨.following crashesSent.flight 0, false⟩ []) (.resume 1)).1 =
      left ⟨.finished .cancelled, true⟩ ⟨.leading crashesSent, false⟩
        [(crashesSent.flight.key, 1)] := by
    have hboards : (step {} (left ⟨.finished .cancelled, true⟩
        ⟨.following crashesSent.flight 0, false⟩ []) (.resume 1)).1 =
        (board {} (left ⟨.finished .cancelled, true⟩
          ⟨.following crashesSent.flight 0, false⟩ []) 1 crashesSent.flight).1 := rfl
    rw [hboards, board_crashes rfl rfl]
    rfl
  have hanswered : (step {} (left ⟨.finished .cancelled, true⟩ ⟨.leading crashesSent, false⟩
      [(crashesSent.flight.key, 1)]) (.reply 1 (.ok (.arr [])))).1 = crashesHeld := by
    have hlanded : (step {} (left ⟨.finished .cancelled, true⟩ ⟨.leading crashesSent, false⟩
        [(crashesSent.flight.key, 1)]) (.reply 1 (.ok (.arr [])))).1 =
        { crashesHeld with inflight :=
          [(crashesSent.flight.key, 1)].filter (·.1 != crashesSent.flight.key) } := rfl
    rw [hlanded, hgone 1]
    rfl
  have hrun : run {} (State.start {} none none 1000.0) crashesRerun =
      (step {} (step {} (step {} ((run {} (State.start {} none none 1000.0)
        [.arrive (.request crashes), .arrive (.request crashes), .arrive (.request crashes),
          .resume 0, .resume 1, .resume 2]).cancel 0) (.resume 0)).1 (.resume 1)).1
        (.reply 1 (.ok (.arr [])))).1 := rfl
  rw [hrun, run_crashes_boarded, hdropped, hretried, hanswered]

/-- The second follower runs again too, although the result of the first is held. -/
theorem starts_crashesRerun :
    Starts {} (run {} (State.start {} none none 1000.0) crashesRerun) (.resume 2) 2 crashesSent ∧
    (run {} (State.start {} none none 1000.0) crashesRerun).Holds crashesSent.flight.key := by
  rw [run_crashesRerun]
  refine ⟨⟨?_, ?_⟩, fetchedEntry {} 1000.0 60 crashesSent [], crashesFound, ?_, rfl, ?_⟩
  · rintro sent ⟨⟩
  · have hboards : (step {} crashesHeld (.resume 2)).1 =
        (board {} crashesHeld 2 crashesSent.flight).1 := rfl
    rw [hboards, board_crashes rfl rfl]
    rfl
  · simp [Cache.stored?, crashesHeld, crashesLanded, fetchedEntry]
  · exact isExpired_fresh _ _

end IssueSearch.Search
