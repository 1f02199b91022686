import IssueSearch.Proofs.Search.Looking
import IssueSearch.Proofs.Search.SingleFlight
/-!
A call that no other call comes between. From its arrival on it is let go on, answered and asked to
end, and the clock moves, but nothing happens to other calls and nobody else tells the cache
anything. `Course` lists what such a call can have come to, with what it has left of the cache and
of the flights and which backend calls it has started.
-/
namespace IssueSearch.Search

/-- What can happen to a call that no other call comes between. -/
inductive Happening where
  | resume
  | reply (answer : Except Failure Json)
  | cancel
  | advance (seconds : Float)

/-- A happening as an event of the call with a number. -/
def Happening.event (id : CallId) : Happening → Event
  | .resume => .resume id
  | .reply answer => .reply id answer
  | .cancel => .cancel id
  | .advance seconds => .advance seconds

/-- The events of a call that arrives and is alone from then on. -/
def alone (s : State) (input : Input) (happenings : List Happening) : List Event :=
  .arrive input :: happenings.map (Happening.event s.calls.length)

variable (search : Search)

/-- The state that they lead to. -/
def attempt (s : State) (input : Input) (happenings : List Happening) : State :=
  search.run s (alone s input happenings)

/-- The backend calls that a call starts by a step: one if it takes the lead of a flight. -/
def startedBy (s s' : State) (id : CallId) : List BackendCall :=
  match s.phase? id, s'.phase? id with
  | some (.leading _), _ => []
  | _, some (.leading sent) => [sent.call]
  | _, _ => []

/-- The backend calls that a call starts in a run, in order. -/
def started (id : CallId) (s : State) : List Event → List BackendCall
  | [] => []
  | event :: rest =>
      startedBy s (search.step s event).1 id ++ started id (search.step s event).1 rest

theorem started_append (id : CallId) (s : State) (earlier later : List Event) :
    search.started id s (earlier ++ later) =
      search.started id s earlier ++ search.started id (search.run s earlier) later := by
  induction earlier generalizing s with
  | nil => rfl
  | cons event rest ih =>
      rw [List.cons_append, started, ih, started, List.append_assoc]
      rfl

theorem started_concat (id : CallId) (s : State) (events : List Event) (event : Event) :
    search.started id s (events ++ [event]) = search.started id s events ++
      startedBy (search.run s events) (search.step (search.run s events) event).1 id := by
  rw [started_append, started, started, List.append_nil]

variable {search} {s s' : State} {input : Input} {happenings : List Happening}

theorem alone_concat (happening : Happening) :
    alone s input (happenings ++ [happening]) =
      alone s input happenings ++ [happening.event s.calls.length] := by
  rw [alone, alone, List.map_append, List.cons_append]
  rfl

theorem attempt_concat (happening : Happening) :
    search.attempt s input (happenings ++ [happening]) =
      (search.step (search.attempt s input happenings) (happening.event s.calls.length)).1 := by
  rw [attempt, alone_concat, run_concat]
  rfl

variable (search) in
/-- A call that is alone begins at some time: it goes on for the first time, and nobody has asked it
to end. -/
def Begins (s : State) (input : Input) (happenings : List Happening) (time : Float) : Prop :=
  ∃ earlier later, happenings = earlier ++ .resume :: later ∧
    (search.attempt s input earlier).calls[s.calls.length]? = some ⟨.ready input, false⟩ ∧
    (search.attempt s input earlier).now = time

theorem begins_concat_iff {happening : Happening} {time : Float} :
    search.Begins s input (happenings ++ [happening]) time ↔
      search.Begins s input happenings time ∨ (happening = .resume ∧
        (search.attempt s input happenings).calls[s.calls.length]? = some ⟨.ready input, false⟩ ∧
        (search.attempt s input happenings).now = time) := by
  constructor
  · rintro ⟨earlier, later, hsplit, hcall, htime⟩
    rcases List.eq_nil_or_concat later with rfl | ⟨later, last, rfl⟩
    · obtain ⟨rfl, hlast⟩ := List.append_inj' hsplit rfl
      exact .inr ⟨List.singleton_inj.1 hlast, hcall, htime⟩
    · rw [List.concat_eq_append, ← List.cons_append, ← List.append_assoc] at hsplit
      obtain ⟨rfl, -⟩ := List.append_inj' hsplit rfl
      exact .inl ⟨earlier, later, rfl, hcall, htime⟩
  · rintro (⟨earlier, later, rfl, hcall, htime⟩ | ⟨rfl, hcall, htime⟩)
    · exact ⟨earlier, later ++ [happening], by simp, hcall, htime⟩
    · exact ⟨happenings, [], rfl, hcall, htime⟩

variable (search) in
/-- The store of an answer has failed in its sweep, and the cache is what it has left. -/
def Stumbles (s : State) (input : Input) (happenings : List Happening)
    (cache : Cache Float Stored) : Prop :=
  ∃ earlier answer later sent records cause, happenings = earlier ++ .reply answer :: later ∧
    Fetches (search.attempt s input earlier) (.reply s.calls.length answer) s.calls.length sent
      records ∧
    (search.keep (search.attempt s input earlier) sent.flight.key
      (search.resultOf (search.attempt s input earlier).now sent records)).1 =
        .error (.overflow cause) ∧
    cache = ((search.attempt s input earlier).cache.insert (search.attempt s input earlier).now
      sent.flight.key (.result (search.resultOf (search.attempt s input earlier).now sent records))
      search.settings.resultTtl).2.1

theorem Stumbles.concat {cache : Cache Float Stored}
    (hstumbles : search.Stumbles s input happenings cache) (happening : Happening) :
    search.Stumbles s input (happenings ++ [happening]) cache := by
  obtain ⟨earlier, answer, later, sent, records, cause, rfl, hfetches, hkeep, hcache⟩ := hstumbles
  exact ⟨earlier, answer, later ++ [happening], sent, records, cause, by simp, hfetches, hkeep,
    hcache⟩

/-- How a leader ends without anything being stored: it is cancelled, the backend fails or answers
with no records, or the time to live of results is none. -/
inductive Cut : Outcome → Prop
  | cancelled : Cut .cancelled
  | failed (failure : Failure) : Cut (.raised (.backend failure))
  | garbled (value : Json) : Cut (.raised (.notRecords value))
  | unstored (cause : Cache.InvalidTtl) : Cut (.raised (.cache (.ttl cause)))

variable (search) in
/-- What a call for a request has come to that is alone since it arrived in a state: when it has
looked its key up, its phase, the cache, the flights, and the backend calls that it has started. -/
inductive Course (s : State) (input : Input) (r : Request) (happenings : List Happening) :
    Option Float → Phase → Cache Float Stored → List (String × CallId) → List BackendCall → Prop
  | ready : Course s input r happenings none (.ready input) s.cache s.inflight []
  | quit : Course s input r happenings none (.finished .cancelled) s.cache s.inflight []
  | overflow {time : Float} {cause : Overflow}
      (looked : s.cache.get? time (search.key r) = .error cause) :
      Course s input r happenings (some time) (.finished (.raised (.cache (.overflow cause))))
        s.cache s.inflight []
  | joined {time : Float} {left : Cache Float Stored} {leader : CallId}
      (missed : Misses s.cache time (search.key r) left)
      (found : s.inflight.lookup (search.key r) = some leader) :
      Course s input r happenings (some time) (.following (search.flightOf r time) leader) left
        s.inflight []
  | parted {time : Float} {left : Cache Float Stored}
      (missed : Misses s.cache time (search.key r) left) :
      Course s input r happenings (some time) (.finished .cancelled) left s.inflight []
  | refused {time : Float} {left : Cache Float Stored} {error : SearchError}
      (missed : Misses s.cache time (search.key r) left) (refused : search.Refuses r error) :
      Course s input r happenings (some time) (.finished (.raised error)) left s.inflight []
  | led {time : Float} {left : Cache Float Stored} {query : Query} {sent : Sent}
      (missed : Misses s.cache time (search.key r) left)
      (free : s.inflight.lookup (search.key r) = none)
      (compiled : Query.ofRequest search.grammar r = .ok query)
      (flight : sent.flight = search.flightOf r time)
      (call : sent.call = search.backendCall r query) :
      Course s input r happenings (some time) (.leading sent) left
        ((search.key r, s.calls.length) :: s.inflight) [sent.call]
  | cut {time : Float} {left : Cache Float Stored} {query : Query} {outcome : Outcome}
      (missed : Misses s.cache time (search.key r) left)
      (compiled : Query.ofRequest search.grammar r = .ok query) (cut : Cut outcome) :
      Course s input r happenings (some time) (.finished outcome) left s.inflight
        [search.backendCall r query]
  | returned {time : Float} {left : Cache Float Stored} {result : SearchResult}
      {calls : List BackendCall} :
      Course s input r happenings (some time) (.finished (.returned result)) left s.inflight calls
  | stumbled {time : Float} {left : Cache Float Stored} {query : Query} {cause : Overflow}
      (stumbles : search.Stumbles s input happenings left)
      (compiled : Query.ofRequest search.grammar r = .ok query) :
      Course s input r happenings (some time) (.finished (.raised (.cache (.overflow cause)))) left
        s.inflight [search.backendCall r query]

variable {r : Request} {looked : Option Float} {phase : Phase} {cache : Cache Float Stored}
  {flights : List (String × CallId)} {sent : List BackendCall} {id : CallId}

theorem Course.concat (hcourse : search.Course s input r happenings looked phase cache flights sent)
    (happening : Happening) :
    search.Course s input r (happenings ++ [happening]) looked phase cache flights sent := by
  cases hcourse with
  | ready => exact .ready
  | quit => exact .quit
  | overflow looked => exact .overflow looked
  | joined missed found => exact .joined missed found
  | parted missed => exact .parted missed
  | refused missed refused => exact .refused missed refused
  | led missed free compiled flight call => exact .led missed free compiled flight call
  | cut missed compiled cut => exact .cut missed compiled cut
  | returned => exact .returned
  | stumbled stumbles compiled => exact .stumbled (stumbles.concat happening) compiled

section Last

variable {call : Call} {requested : Bool}

theorem getElem?_last (hcalls : s'.calls = s.calls ++ [call]) :
    s'.calls[s.calls.length]? = some call := by
  rw [hcalls, List.getElem?_append_right (Nat.le_refl _), Nat.sub_self]
  rfl

theorem modify_last (calls : List Call) (call : Call) (f : Call → Call) :
    (calls ++ [call]).modify calls.length f = calls ++ [f call] := by
  rw [List.modify_eq_set_getElem?, List.getElem?_append_right (Nat.le_refl _), Nat.sub_self]
  simp

theorem enter_last (hcalls : s'.calls = s.calls ++ [⟨phase, requested⟩]) (phase' : Phase) :
    (s'.enter s.calls.length phase').calls = s.calls ++ [⟨phase', requested⟩] := by
  simp only [State.enter, hcalls, modify_last]

/-- The calls that were there before the last one are as they were. -/
theorem outcome?_of_last (hcalls : s'.calls = s.calls ++ [call]) {id : CallId} {outcome : Outcome}
    (houtcome : s'.outcome? id = some outcome) (hne : id ≠ s.calls.length) :
    s.outcome? id = some outcome := by
  rw [State.outcome?_eq_some_iff, State.phase?, hcalls, Option.map_eq_some_iff] at *
  obtain ⟨old, hold, hphase⟩ := houtcome
  obtain ⟨hlt, -⟩ := List.getElem?_eq_some_iff.1 hold
  rw [List.length_append, List.length_singleton] at hlt
  refine ⟨old, ?_, hphase⟩
  rw [List.getElem?_append_left (Nat.lt_of_le_of_ne (Nat.lt_succ_iff.1 hlt) hne)] at hold
  exact hold

end Last

/-- A call starts no backend call by a step behind which it does not lead. -/
theorem startedBy_of_unled (hphase : s'.phase? id = some phase)
    (hunled : ∀ sent, phase ≠ .leading sent) : startedBy s s' id = [] := by
  rw [startedBy, hphase]
  split
  · rfl
  · rename_i heq _
    exact absurd (Option.some.inj heq) (hunled _)
  · rfl

theorem startedBy_of_led {led : Sent} (hphase : s.phase? id = some (.leading led)) :
    startedBy s s' id = [] := by
  rw [startedBy, hphase]

theorem startedBy_lead {led : Sent} (hphase : s.phase? id = some phase)
    (hunled : ∀ sent, phase ≠ .leading sent) (hled : s'.phase? id = some (.leading led)) :
    startedBy s s' id = [led.call] := by
  rw [startedBy, hphase, hled]
  split
  · rename_i heq
    exact absurd (Option.some.inj heq) (hunled _)
  · rename_i heq _
    cases heq
    rfl
  · rename_i hnot
    exact absurd rfl (hnot led)

variable (search) in
/-- A call that is alone has come from one state to another by a happening. -/
def Advances (s : State) (input : Input) (r : Request) (happenings : List Happening)
    (looked : Option Float) (sent : List BackendCall) (happening : Happening)
    (before after : State) : Prop :=
  ∃ phase requested looked', after.calls = s.calls ++ [⟨phase, requested⟩] ∧
    search.Course s input r (happenings ++ [happening]) looked' phase after.cache after.inflight
      (sent ++ startedBy before after s.calls.length) ∧
    ∀ time, looked' = some time ↔ looked = some time ∨ (happening = .resume ∧
      before.calls[s.calls.length]? = some ⟨.ready input, false⟩ ∧ before.now = time)

section Step

variable {before after : State} {requested : Bool} {happening : Happening}

/-- A call that has begun, or that does not go on, enters its next phase. -/
theorem Course.advances {phase' : Phase} {requested' : Bool}
    (hcourse : search.Course s input r (happenings ++ [happening]) looked phase' after.cache
      after.inflight (sent ++ startedBy before after s.calls.length))
    (hafter : after.calls = s.calls ++ [⟨phase', requested'⟩])
    (hunbegun : happening = .resume →
      before.calls[s.calls.length]? ≠ some ⟨.ready input, false⟩) :
    search.Advances s input r happenings looked sent happening before after := by
  refine ⟨phase', requested', looked, hafter, hcourse, fun time => ?_⟩
  constructor
  · exact .inl
  · rintro (hlooked | ⟨hresume, hready, -⟩)
    · exact hlooked
    · exact absurd hready (hunbegun hresume)

/-- A happening that changes neither phase nor cache nor flights. -/
theorem Course.stays {requested' : Bool}
    (hcourse : search.Course s input r happenings looked phase before.cache before.inflight sent)
    (hbefore : before.calls = s.calls ++ [⟨phase, requested⟩])
    (hafter : after.calls = s.calls ++ [⟨phase, requested'⟩]) (hcache : after.cache = before.cache)
    (hinflight : after.inflight = before.inflight)
    (hunbegun : happening = .resume → ∀ input, phase = .ready input → requested = true) :
    search.Advances s input r happenings looked sent happening before after := by
  have hnone : startedBy before after s.calls.length = [] := by
    have hphase := State.phase?_of_called (getElem?_last hbefore)
    have hphase' := State.phase?_of_called (getElem?_last hafter)
    cases hphases : phase with
    | leading led => exact startedBy_of_led (hphase.trans (congrArg some hphases))
    | ready | following | finished =>
        exact startedBy_of_unled (hphase'.trans (congrArg some hphases)) (by simp)
  refine Course.advances ?_ hafter fun hresume hready => ?_
  · rw [hnone, List.append_nil, hcache, hinflight]
    exact hcourse.concat happening
  · rw [getElem?_last hbefore] at hready
    cases hready
    exact Bool.noConfusion (hunbegun hresume input rfl)

theorem Course.cancel
    (hcourse : search.Course s input r happenings looked phase before.cache before.inflight sent)
    (hbefore : before.calls = s.calls ++ [⟨phase, requested⟩]) :
    search.Advances s input r happenings looked sent .cancel before
      (before.cancel s.calls.length) := by
  have hafter : ∃ requested', (before.cancel s.calls.length).calls =
      s.calls ++ [⟨phase, requested'⟩] := by
    simp only [State.cancel, hbefore, modify_last]
    cases phase with
    | ready | leading | following => exact ⟨true, rfl⟩
    | finished => exact ⟨requested, rfl⟩
  obtain ⟨requested', hafter⟩ := hafter
  exact hcourse.stays hbefore hafter rfl rfl (by simp)

/-- The flight of a key that had none is taken away again. -/
theorem filter_own {flights : List (String × CallId)} {key : String}
    (hfree : flights.lookup key = none) (id : CallId) :
    ((key, id) :: flights).filter (·.1 != key) = flights := by
  have hothers : flights.filter (·.1 != key) = flights := by
    rw [List.filter_eq_self]
    intro other hmem
    exact bne_iff_ne.2 (lookup_eq_none_iff_forall_ne.1 hfree other hmem)
  simpa using hothers

/-- A leader that ends takes its flight away again. -/
theorem Course.land {time : Float} {led : Sent} {outcome : Outcome} {calls : List BackendCall}
    (hbefore : before.calls = s.calls ++ [⟨.leading led, requested⟩])
    (hflight : led.flight = search.flightOf r time)
    (hfree : s.inflight.lookup (search.key r) = none)
    (hinflight : after.inflight = (search.key r, s.calls.length) :: s.inflight)
    (hcalls : after.calls = before.calls)
    (hcourse : search.Course s input r (happenings ++ [happening]) looked (.finished outcome)
      after.cache s.inflight calls) :
    search.Advances s input r happenings looked calls happening before
      (after.land s.calls.length led.flight outcome).1 := by
  have hland : (after.land s.calls.length led.flight outcome).1.inflight = s.inflight := by
    rw [State.inflight_land, hinflight, hflight]
    exact filter_own hfree _
  have hnone : startedBy before (after.land s.calls.length led.flight outcome).1
      s.calls.length = [] :=
    startedBy_of_led (State.phase?_of_called (getElem?_last hbefore))
  refine Course.advances ?_ (enter_last (hcalls.trans hbefore) (.finished outcome)) ?_
  · rw [hnone, List.append_nil, hland, State.cache_land]
    exact hcourse
  · rw [getElem?_last hbefore]
    rintro - ⟨⟩

/-- A result without a time to live leaves the cache as it is. -/
theorem keep_eq_ttl {key : String} {result : SearchResult} {cause : Cache.InvalidTtl}
    {log : List LogRecord} (hkeep : search.keep s key result = (.error (.ttl cause), s', log)) :
    s' = s := by
  simp only [keep, Cache.insert] at hkeep
  cases hresolve : s.cache.policy.resolveTtl key search.settings.resultTtl with
  | error cause' =>
      simp only [hresolve] at hkeep
      cases hkeep
      rfl
  | ok seconds =>
      simp only [hresolve] at hkeep
      split at hkeep
      · rename_i hstored
        cases hkeep
        cases hstore : (s.cache.store s.now key (.result result) seconds).1 <;>
          simp only [hstore, Except.mapError] at hstored <;> cases hstored
      · split at hkeep
        · split at hkeep <;> cases hkeep
        · cases hkeep

/-- A sweep that fails leaves the cache as the store has left it. -/
theorem keep_eq_overflow {key : String} {result : SearchResult} {cause : Overflow}
    {log : List LogRecord}
    (hkeep : search.keep s key result = (.error (.overflow cause), s', log)) :
    s'.cache = (s.cache.insert s.now key (.result result) search.settings.resultTtl).2.1 := by
  simp only [keep] at hkeep
  split at hkeep
  · cases hkeep
    rfl
  · split at hkeep
    · split at hkeep
      · cases hkeep
      · cases hkeep
        rfl
    · cases hkeep

theorem Course.reply (hbefore : before.calls = s.calls ++ [⟨phase, requested⟩])
    (hattempt : search.attempt s input happenings = before)
    (hcourse : search.Course s input r happenings looked phase before.cache before.inflight sent)
    (answer : Except Failure Json) :
    search.Advances s input r happenings looked sent (.reply answer) before
      (search.reply before s.calls.length answer).1 := by
  have hcall := getElem?_last hbefore
  by_cases hleads : ∃ led, phase = .leading led ∧ requested = false
  · obtain ⟨led, rfl, rfl⟩ := hleads
    generalize hflights : before.inflight = flights at hcourse
    generalize hcache : before.cache = cache at hcourse
    cases hcourse with
    | @led time left query _ missed free compiled flight call =>
        cases answer with
        | error failure =>
            simp only [Search.reply, hcall]
            refine Course.land hbefore flight free hflights rfl ?_
            rw [hcache, call]
            exact .cut missed compiled (.failed failure)
        | ok value =>
            cases hanswered : recordsOf value with
            | none =>
                simp only [Search.reply, hcall, hanswered]
                refine Course.land hbefore flight free hflights rfl ?_
                rw [hcache, call]
                exact .cut missed compiled (.garbled value)
            | some records =>
                rcases hkeep : search.keep before led.flight.key
                  (search.resultOf before.now led records) with ⟨kept, s', log⟩
                have hframe := search.keep_frame before hkeep
                have hinflight : s'.inflight =
                    (search.key r, s.calls.length) :: s.inflight := by
                  rw [hframe]
                  exact hflights
                have hcalls : s'.calls = before.calls := by rw [hframe]
                cases kept with
                | ok done =>
                    simp only [Search.reply, hcall, hanswered, hkeep]
                    exact Course.land hbefore flight free hinflight hcalls .returned
                | error cause =>
                    simp only [Search.reply, hcall, hanswered, hkeep]
                    refine Course.land hbefore flight free hinflight hcalls ?_
                    rw [call]
                    cases cause with
                    | ttl cause =>
                        rw [keep_eq_ttl hkeep, hcache]
                        exact .cut missed compiled (.unstored cause)
                    | overflow cause =>
                        refine .stumbled ⟨happenings, .ok value, [], led, records, cause, rfl, ?_⟩
                          compiled
                        rw [hattempt]
                        exact ⟨⟨hcall, value, rfl, hanswered⟩, by rw [hkeep],
                          keep_eq_overflow hkeep⟩
  · have hnone : (search.reply before s.calls.length answer).1 = before := by
      simp only [Search.reply, hcall]
      split
      · rename_i led heq
        cases heq
        exact absurd ⟨_, rfl, rfl⟩ hleads
      · rfl
    rw [hnone]
    exact hcourse.stays hbefore hbefore rfl rfl (by simp)

/-- A call that begins without coming to lead. -/
theorem Advances.of_begin {phase' : Phase} {left : Cache Float Stored}
    (hbefore : before.calls = s.calls ++ [⟨.ready input, false⟩])
    (hafter : after.calls = (before.enter s.calls.length phase').calls)
    (hcache : after.cache = left) (hinflight : after.inflight = s.inflight)
    (hunled : ∀ led, phase' ≠ .leading led)
    (hcourse : search.Course s input r (happenings ++ [.resume]) (some before.now) phase'
      left s.inflight []) :
    search.Advances s input r happenings none [] .resume before after := by
  have hcalls := hafter.trans (enter_last hbefore phase')
  refine ⟨phase', false, some before.now, hcalls, ?_, fun time => ?_⟩
  · rw [startedBy_of_unled (State.phase?_of_called (getElem?_last hcalls)) hunled, hcache,
      hinflight]
    exact hcourse
  · simp [getElem?_last hbefore]

/-- A call that begins and takes the lead. -/
theorem Advances.of_lead {led : Sent} {left : Cache Float Stored}
    (hbefore : before.calls = s.calls ++ [⟨.ready input, false⟩])
    (hafter : after.calls = (before.enter s.calls.length (.leading led)).calls)
    (hcache : after.cache = left)
    (hinflight : after.inflight = (search.key r, s.calls.length) :: s.inflight)
    (hcourse : search.Course s input r (happenings ++ [.resume]) (some before.now) (.leading led)
      left ((search.key r, s.calls.length) :: s.inflight) [led.call]) :
    search.Advances s input r happenings none [] .resume before after := by
  have hphase := State.phase?_of_called (getElem?_last hbefore)
  have hcalls := hafter.trans (enter_last hbefore _)
  refine ⟨.leading led, false, some before.now, hcalls, ?_, fun time => ?_⟩
  · rw [startedBy_lead hphase (by simp) (State.phase?_of_called (getElem?_last hcalls)), hcache,
      hinflight]
    exact hcourse
  · simp [getElem?_last hbefore]

theorem Boards.advances {left : Cache Float Stored}
    (hbefore : before.calls = s.calls ++ [⟨.ready input, false⟩])
    (hinflight : before.inflight = s.inflight)
    (hmissed : Misses s.cache before.now (search.key r) left)
    (hboards : search.Boards { before with cache := left } s.calls.length
      (search.flightOf r before.now) after) :
    search.Advances s input r happenings none [] .resume before after := by
  cases hboards with
  | join found =>
      rw [hinflight] at found
      exact Advances.of_begin hbefore rfl rfl hinflight (by simp) (.joined hmissed found)
  | refuse free refused =>
      rw [hinflight] at free
      refine Advances.of_begin hbefore rfl rfl ?_ (by simp) (.refused hmissed refused)
      rw [State.inflight_land, ← filter_own free s.calls.length, hinflight]
  | @lead query free valid compiled =>
      rw [hinflight] at free
      refine Advances.of_lead hbefore rfl rfl ?_ (.led hmissed free compiled rfl rfl)
      rw [← hinflight]
      rfl

theorem Course.begin (hbefore : before.calls = s.calls ++ [⟨.ready input, false⟩])
    (hcache : before.cache = s.cache) (hinflight : before.inflight = s.inflight) :
    search.Advances s input r happenings none [] .resume before
      (search.begin before s.calls.length r).1 := by
  cases hlooked : before.cache.get? before.now (search.key r) with
  | error cause =>
      simp only [Search.begin, hlooked]
      exact Advances.of_begin hbefore rfl hcache hinflight (by simp) (.overflow (hcache ▸ hlooked))
  | ok found =>
      have hmissed : ∀ {left}, Misses before.cache before.now (search.key r) left →
          Misses s.cache before.now (search.key r) left := fun h => hcache ▸ h
      rcases found with ⟨_ | entry, left⟩
      · simp only [Search.begin, hlooked]
        exact Boards.advances hbefore hinflight (hmissed (.absent hlooked))
          (search.board_boards _ _ _)
      · cases hpayload : entry.payload with
        | result stored =>
            simp only [Search.begin, hlooked, hpayload]
            have hcourse : search.Course s input r (happenings ++ [.resume]) (some before.now)
                (.finished (.returned (stored.fromCache r))) left s.inflight [] := .returned
            exact Advances.of_begin hbefore rfl rfl hinflight (by simp) hcourse
        | foreign value =>
            simp only [Search.begin, hlooked, hpayload]
            exact Boards.advances hbefore hinflight (hmissed (.thrown hlooked hpayload))
              (search.board_boards _ _ _)

/-- A call that has begun ends. -/
theorem Course.ends {outcome : Outcome} {flights : List (String × CallId)}
    (hbefore : before.calls = s.calls ++ [⟨phase, requested⟩])
    (hafter : after.calls = (before.enter s.calls.length (.finished outcome)).calls)
    (hcache : after.cache = cache) (hinflight : after.inflight = flights)
    (hunready : ∀ input, phase ≠ .ready input ∨ requested = true)
    (hcourse : search.Course s input r (happenings ++ [happening]) looked (.finished outcome)
      cache flights sent) :
    search.Advances s input r happenings looked sent happening before after := by
  have hcalls := hafter.trans (enter_last hbefore _)
  refine Course.advances ?_ hcalls fun _ hready => ?_
  · rw [startedBy_of_unled (State.phase?_of_called (getElem?_last hcalls)) (by simp),
      List.append_nil, hcache, hinflight]
    exact hcourse
  · rw [getElem?_last hbefore] at hready
    cases hready
    simpa using hunready input

/-- Whoever leads a flight of the state before goes on leading it. -/
theorem unended_of_found (hflights : s.SingleFlight) {call : Call}
    (hcalls : s'.calls = s.calls ++ [call]) {key : String} {leader : CallId}
    (hfound : s.inflight.lookup key = some leader) : s'.outcome? leader = none := by
  have hleads := (hflights.lookup_iff _ _).1 hfound
  cases hended : s'.outcome? leader with
  | none => rfl
  | some outcome =>
      have hne : leader ≠ s.calls.length := by
        rintro rfl
        obtain ⟨led, hphase, -⟩ := hleads
        simp [State.phase?] at hphase
      have hold := outcome?_of_last hcalls hended hne
      rw [State.outcome?_eq_none_of_leads hleads] at hold
      cases hold

theorem Course.resume (hflights : s.SingleFlight) (hasked : search.requestOf input = .ok r)
    (hbefore : before.calls = s.calls ++ [⟨phase, requested⟩])
    (hcourse : search.Course s input r happenings looked phase before.cache before.inflight sent) :
    search.Advances s input r happenings looked sent .resume before
      (search.resume before s.calls.length).1 := by
  have hcall := getElem?_last hbefore
  have hhere := hcourse
  generalize hcache : before.cache = cache at hcourse
  generalize hinflight : before.inflight = flights at hcourse
  cases hcourse with
  | ready =>
      cases requested with
      | true =>
          simp only [Search.resume, hcall]
          exact Course.ends hbefore rfl hcache hinflight (by simp) .quit
      | false =>
          simp only [Search.resume, hcall, hasked]
          exact Course.begin hbefore hcache hinflight
  | @joined time left leader missed found =>
      cases requested with
      | true =>
          simp only [Search.resume, hcall]
          exact Course.ends hbefore rfl hcache hinflight (by simp) (.parted missed)
      | false =>
          have hended := unended_of_found hflights hbefore found
          simp only [Search.resume, hcall, hended]
          exact hhere.stays hbefore hbefore rfl rfl (by simp)
  | led missed free compiled flight call =>
      cases requested with
      | true =>
          simp only [Search.resume, hcall]
          refine Course.land hbefore flight free hinflight rfl ?_
          rw [hcache, call]
          exact .cut missed compiled .cancelled
      | false =>
          simp only [Search.resume, hcall]
          exact hhere.stays hbefore hbefore rfl rfl (by simp)
  | quit | overflow | parted | refused | cut | returned | stumbled =>
      simp only [Search.resume, hcall]
      exact hhere.stays hbefore hbefore rfl rfl (by simp)

/-- What one happening does to a call that is alone. -/
theorem Course.step (hflights : s.SingleFlight) (hasked : search.requestOf input = .ok r)
    (hbefore : before.calls = s.calls ++ [⟨phase, requested⟩])
    (hattempt : search.attempt s input happenings = before)
    (hcourse : search.Course s input r happenings looked phase before.cache before.inflight sent)
    (happening : Happening) :
    search.Advances s input r happenings looked sent happening before
      (search.step before (happening.event s.calls.length)).1 := by
  cases happening with
  | resume => exact Course.resume hflights hasked hbefore hcourse
  | reply answer => exact Course.reply hbefore hattempt hcourse answer
  | cancel => exact hcourse.cancel hbefore
  | advance seconds => exact hcourse.stays hbefore hbefore rfl rfl (by simp)

end Step

variable (search) in
/-- A call that is alone has come to one of the listed ends or is on its way there, and begins when
it looks its key up. -/
def Stage (s : State) (input : Input) (r : Request) (happenings : List Happening) : Prop :=
  ∃ phase requested looked,
    (search.attempt s input happenings).calls = s.calls ++ [⟨phase, requested⟩] ∧
    search.Course s input r happenings looked phase (search.attempt s input happenings).cache
      (search.attempt s input happenings).inflight
      (search.started s.calls.length s (alone s input happenings)) ∧
    ∀ time, search.Begins s input happenings time ↔ looked = some time

theorem started_alone_concat (happening : Happening) :
    search.started s.calls.length s (alone s input (happenings ++ [happening])) =
      search.started s.calls.length s (alone s input happenings) ++
        startedBy (search.attempt s input happenings)
          (search.attempt s input (happenings ++ [happening])) s.calls.length := by
  rw [alone_concat, started_concat, attempt_concat]
  rfl

variable (search) in
theorem started_alone_nil (s : State) (input : Input) :
    search.started s.calls.length s (alone s input []) = [] := by
  have hcalls : (search.attempt s input []).calls = s.calls ++ [⟨.ready input, false⟩] := rfl
  have hphase := State.phase?_of_called (getElem?_last hcalls)
  rw [alone, List.map_nil, started, started, List.append_nil]
  exact startedBy_of_unled hphase (by simp)

/-- A call that is alone is at one of the listed stages at any time. -/
theorem attempt_stage (hflights : s.SingleFlight) (hasked : search.requestOf input = .ok r)
    (happenings : List Happening) : search.Stage s input r happenings := by
  induction happenings using List.reverseRecOn with
  | nil =>
      refine ⟨.ready input, false, none, rfl, ?_, fun time => ?_⟩
      · rw [started_alone_nil]
        exact .ready
      · simp [Begins]
  | append_singleton happenings happening ih =>
      obtain ⟨phase, requested, looked, hcalls, hcourse, hbegins⟩ := ih
      obtain ⟨phase', requested', looked', hcalls', hcourse', hbegins'⟩ :=
        hcourse.step hflights hasked hcalls rfl happening
      rw [← attempt_concat] at hcalls' hcourse'
      refine ⟨phase', requested', looked', hcalls', ?_, fun time => ?_⟩
      · rw [started_alone_concat]
        exact hcourse'
      · rw [begins_concat_iff, hbegins, hbegins']

theorem Course.of_ready {input' : Input}
    (hcourse : search.Course s input r happenings looked (.ready input') cache flights sent) :
    input' = input ∧ flights = s.inflight := by
  cases hcourse
  exact ⟨rfl, rfl⟩

theorem Course.of_following {flight : Flight} {leader : CallId}
    (hcourse : search.Course s input r happenings looked (.following flight leader) cache flights
      sent) : s.inflight.lookup (search.key r) = some leader := by
  cases hcourse with
  | joined missed found => exact found

variable (search) in
/-- A call that hands over no request has touched nothing but itself. -/
def Untouched (s : State) (input : Input) (s' : State) : Prop :=
  ∃ phase requested time, s' = { s with calls := s.calls ++ [⟨phase, requested⟩], now := time } ∧
    (phase = .ready input ∨ phase = .finished .cancelled ∨
      ∃ error, search.requestOf input = .error error ∧ phase = .finished (.raised error))

theorem Untouched.step {error : SearchError} (hasked : search.requestOf input = .error error)
    (huntouched : search.Untouched s input s') (happening : Happening) :
    search.Untouched s input (search.step s' (happening.event s.calls.length)).1 := by
  have hhere := huntouched
  obtain ⟨phase, requested, time, rfl, hphase⟩ := huntouched
  have hcall : (s.calls ++ [(⟨phase, requested⟩ : Call)])[s.calls.length]? =
      some ⟨phase, requested⟩ := by simp
  have henter : ∀ phase', State.enter { s with
      calls := s.calls ++ [⟨phase, requested⟩], now := time } s.calls.length phase' =
        { s with calls := s.calls ++ [⟨phase', requested⟩], now := time } := by
    intro phase'
    simp only [State.enter, modify_last]
  cases happening with
  | advance seconds => exact ⟨phase, requested, time + seconds, rfl, hphase⟩
  | reply answer =>
      rcases hphase with rfl | rfl | ⟨error, -, rfl⟩ <;>
        simpa only [Happening.event, Search.step, reply, hcall] using hhere
  | cancel =>
      simp only [Happening.event, Search.step, State.cancel, modify_last]
      rcases hphase with rfl | rfl | ⟨error, hrefused, rfl⟩
      · exact ⟨_, true, time, rfl, .inl rfl⟩
      · exact hhere
      · exact hhere
  | resume =>
      simp only [Happening.event, Search.step, resume, hcall]
      rcases hphase with rfl | rfl | ⟨error', hrefused, rfl⟩
      · cases requested with
        | true => exact ⟨_, true, time, henter _, .inr (.inl rfl)⟩
        | false =>
            simp only [hasked]
            exact ⟨_, false, time, henter _, .inr (.inr ⟨error, hasked, rfl⟩)⟩
      · exact hhere
      · exact hhere

theorem Untouched.startedBy_eq (huntouched : search.Untouched s input s') {before : State} :
    startedBy before s' s.calls.length = [] := by
  obtain ⟨phase, requested, time, rfl, hphase⟩ := huntouched
  refine startedBy_of_unled (State.phase?_of_called (getElem?_last rfl)) fun led hled => ?_
  obtain rfl : phase = .leading led := hled
  simp at hphase

/-- Nor does it start a backend call. -/
theorem attempt_untouched {error : SearchError} (hasked : search.requestOf input = .error error)
    (happenings : List Happening) :
    search.Untouched s input (search.attempt s input happenings) ∧
      search.started s.calls.length s (alone s input happenings) = [] := by
  induction happenings using List.reverseRecOn with
  | nil => exact ⟨⟨_, false, s.now, rfl, .inl rfl⟩, search.started_alone_nil s input⟩
  | append_singleton happenings happening ih =>
      have hnext : search.Untouched s input
          (search.attempt s input (happenings ++ [happening])) := by
        rw [attempt_concat]
        exact ih.1.step hasked happening
      refine ⟨hnext, ?_⟩
      rw [started_alone_concat, ih.2, hnext.startedBy_eq, List.append_nil]

/-- While a call has not begun, it has the input that it arrived with, and flights are as they
were. -/
theorem attempt_of_ready (hflights : s.SingleFlight) {input' : Input} {requested : Bool}
    (hcall : (search.attempt s input happenings).calls[s.calls.length]? =
      some ⟨.ready input', requested⟩) :
    input' = input ∧ (search.attempt s input happenings).inflight = s.inflight := by
  cases hasked : search.requestOf input with
  | ok r =>
      obtain ⟨phase, requested', looked, hcalls, hcourse, -⟩ :=
        attempt_stage hflights hasked happenings
      rw [getElem?_last hcalls] at hcall
      obtain ⟨rfl, -⟩ := Call.mk.inj (Option.some.inj hcall)
      exact hcourse.of_ready
  | error error =>
      obtain ⟨phase, requested', time, hattempt, hphase⟩ := (attempt_untouched hasked happenings).1
      rw [hattempt, getElem?_last rfl] at hcall
      obtain ⟨rfl, -⟩ := Call.mk.inj (Option.some.inj hcall)
      refine ⟨?_, by rw [hattempt]⟩
      simpa using hphase

/-- The leader that a call waits for goes on leading. -/
theorem attempt_of_following (hflights : s.SingleFlight) {flight : Flight} {leader : CallId}
    {requested : Bool} (hcall : (search.attempt s input happenings).calls[s.calls.length]? =
      some ⟨.following flight leader, requested⟩) :
    (search.attempt s input happenings).outcome? leader = none := by
  cases hasked : search.requestOf input with
  | ok r =>
      obtain ⟨phase, requested', looked, hcalls, hcourse, -⟩ :=
        attempt_stage hflights hasked happenings
      rw [getElem?_last hcalls] at hcall
      obtain ⟨rfl, -⟩ := Call.mk.inj (Option.some.inj hcall)
      exact unended_of_found hflights hcalls hcourse.of_following
  | error error =>
      obtain ⟨phase, requested', time, hattempt, hphase⟩ := (attempt_untouched hasked happenings).1
      rw [hattempt, getElem?_last rfl] at hcall
      obtain ⟨rfl, -⟩ := Call.mk.inj (Option.some.inj hcall)
      simp at hphase

end IssueSearch.Search
