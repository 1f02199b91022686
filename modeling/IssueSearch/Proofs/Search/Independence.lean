import IssueSearch.Proofs.Search.Atomicity
import IssueSearch.Proofs.Search.Calm
/-!
Calls for different keys come to the same in whatever order they arrive, go on and are answered, as
long as nothing runs out, nothing is evicted and the clock can tell when results expire.
-/
namespace IssueSearch.Search

variable {search : Search} {backend : BackendCall → Except Failure Json} {start s : State}
  {first cache left : Cache Float Stored} {inputs : List Input} {input : Input} {id : CallId}

/-- Two ways of a call from one cache end alike. -/
theorem Underway.ends_alike {outcome outcome' : Outcome}
    (hends : search.Underway backend first cache input (.finished outcome))
    (hends' : search.Underway backend first left input (.finished outcome')) :
    outcome.untimed = outcome'.untimed ∧
      ∀ key, search.keyOf input = some key → held cache key = held left key := by
  cases hends with
  | refused asked =>
      cases hends' with
      | refused asked' =>
          rw [asked] at asked'
          cases asked'
          refine ⟨rfl, fun key hkey => ?_⟩
          rw [keyOf, asked] at hkey
          cases hkey
      | settled asked' outcome_eq left_eq =>
          rw [asked] at asked'
          cases asked'
  | settled asked outcome_eq left_eq =>
      cases hends' with
      | refused asked' =>
          rw [asked] at asked'
          cases asked'
      | settled asked' outcome_eq' left_eq' =>
          rw [asked] at asked'
          cases asked'
          refine ⟨outcome_eq.trans outcome_eq'.symm, fun key hkey => ?_⟩
          rw [keyOf_ok asked, Option.some.injEq] at hkey
          rw [← hkey]
          exact left_eq.trans left_eq'.symm

/-- Every call has ended. -/
def State.Ended (s : State) : Prop :=
  ∀ id, id < s.calls.length → ∃ outcome, s.outcome? id = some outcome

theorem Progress.ended (hprogress : search.Progress backend first inputs s) (hended : s.Ended)
    (hinput : inputs[id]? = some input) : ∃ outcome, s.outcome? id = some outcome ∧
      search.Underway backend first s.cache input (.finished outcome) := by
  obtain ⟨hlt, -⟩ := List.getElem?_eq_some_iff.1 hinput
  obtain ⟨outcome, houtcome⟩ := hended id (hprogress.length_eq ▸ hlt)
  obtain ⟨phase, hphase, hunderway⟩ := hprogress.underway id input hinput
  rw [State.outcome?_eq_some_iff.1 houtcome, Option.some.injEq] at hphase
  exact ⟨outcome, houtcome, hphase ▸ hunderway⟩

/-! ### Two calls -/

/-- A request by another text. -/
def leaks : Request := { textSearch := some "leak" }

/-- Two calls arrive and begin. -/
def openings (q q' : Request) : List Event :=
  [.arrive (.request q), .arrive (.request q'), .resume 0, .resume 1]

theorem key_crashes_ne_leaks (search : Search) : search.key crashes ≠ search.key leaks := by
  have hcrashes : crashes.toJson.canonicalText =
      ({ textSearch := some "crash", pagination := { offset := none } } :
        Request).toJson.canonicalText := rfl
  have hleaks : leaks.toJson.canonicalText =
      ({ textSearch := some "leak", pagination := { offset := none } } :
        Request).toJson.canonicalText := rfl
  rw [ne_eq, key_eq_iff_short, hcrashes, hleaks, ← String.toList_inj, Digest.toList_short,
    Digest.toList_short, canonicalText_byText, canonicalText_byText]
  decide +kernel

/-- Both lead a flight if they are for different keys. -/
theorem State.Fresh.leads_both (hfresh : start.Fresh) {q q' : Request} {query query' : Query}
    (hvalid : (Validation.ofRequest search.checks q).valid = true)
    (hcompiled : Query.ofRequest search.grammar q = .ok query)
    (hvalid' : (Validation.ofRequest search.checks q').valid = true)
    (hcompiled' : Query.ofRequest search.grammar q' = .ok query')
    (hkey : search.key q ≠ search.key q') :
    ∃ sent sent' : Sent, (search.run start (openings q q')).calls =
        [⟨.leading sent, false⟩, ⟨.leading sent', false⟩] ∧
      (search.run start (openings q q')).cache =
        { start.cache with counters.misses := start.cache.counters.misses + 2 } ∧
      (search.run start (openings q q')).now = start.now := by
  let arrived : State := { start with
    calls := [⟨.ready (.request q), false⟩, ⟨.ready (.request q'), false⟩] }
  have harrived : search.run start (openings q q') =
      (search.step (search.step arrived (.resume 0)).1 (.resume 1)).1 := by
    have hrun : search.run start (openings q q') =
        (search.step (search.step { start with
          calls := start.calls ++ [⟨.ready (.request q), false⟩] ++
            [⟨.ready (.request q'), false⟩] } (.resume 0)).1 (.resume 1)).1 := rfl
    rw [hrun, hfresh.calls]
    rfl
  have hfree : arrived.inflight.lookup (search.key q) = none := by
    rw [show arrived.inflight = [] from hfresh.inflight]
    rfl
  obtain ⟨sent, -, -, -, hleads⟩ :=
    @resume_ready_leads search arrived 0 (.request q) q query rfl rfl (hfresh.lacks _) hfree hvalid
      hcompiled
  generalize hfirst : (search.step arrived (.resume 0)).1 = led at harrived hleads
  have hcall : led.calls[1]? = some ⟨.ready (.request q'), false⟩ := by
    rw [hleads]
    rfl
  have hlacks : Lacks led.cache (search.key q') := by
    rw [hleads]
    exact hfresh.lacks _
  have hfree' : led.inflight.lookup (search.key q') = none := by
    have hflights : led.inflight = [(search.key q, 0)] := by
      rw [hleads, show arrived.inflight = [] from hfresh.inflight]
      rfl
    rw [hflights, List.lookup_cons, beq_eq_false_iff_ne.2 hkey.symm]
    rfl
  obtain ⟨sent', -, -, -, hleads'⟩ :=
    @resume_ready_leads search led 1 (.request q') q' query' hcall rfl hlacks hfree' hvalid'
      hcompiled'
  rw [harrived, hleads', hleads]
  exact ⟨sent, sent', rfl, rfl, rfl⟩

/-- Two calls that begin, and are answered that there are no records. -/
def twoAnswered (q q' : Request) (id other : CallId) : List Event :=
  openings q q' ++ [.reply id (.ok (.arr [])), .reply other (.ok (.arr []))]

theorem twoAnswered_calm (q q' : Request) (id other : CallId) :
    Calm {} (fun _ => .ok (.arr [])) (State.start {} none none 1000.0)
      (twoAnswered q q' id other) := by
  have hplain : ∀ event ∈ twoAnswered q q' id other, event.isPlain = true := by
    simp [twoAnswered, openings, Event.isPlain]
  have hnow : ∀ earlier, earlier <+: twoAnswered q q' id other →
      (run {} (State.start {} none none 1000.0) earlier).now = 1000.0 := by
    intro earlier hpart
    refine run_now fun event hevent seconds hadvance => ?_
    have hmem := hpart.subset hevent
    rw [hadvance] at hmem
    simp [twoAnswered, openings] at hmem
  have hstale : Timeline.reached (1000.0 : Float) (1000.0 + Decimal.ofInt 60) = false := by
    decide +kernel
  refine ⟨hplain, backed_const ?_, fun earlier hpart => ?_, by simp [State.start], ?_⟩
  · simp [twoAnswered, openings]
  · refine run_roomy (fun event hevent => hplain event (hpart.subset hevent)) ?_
    refine Nat.le_trans (Nat.add_le_add_left (List.countP_le_length.trans hpart.length_le) _) ?_
    simp [twoAnswered, openings, State.start, Cache.size]
  · intro key ttl httl earlier later hearlier hlater
    have hminute : (60 : Int) = ttl := Except.ok.inj httl
    subst hminute
    rw [hnow earlier (hearlier.trans hlater), hnow later hlater]
    exact ⟨_, after_minute, hstale⟩

/-- Two leaders end, one after the other. -/
theorem outcome?_replies {other : CallId} {sent sent' : Sent}
    (hcall : s.calls[id]? = some ⟨.leading sent, false⟩)
    (hcall' : s.calls[other]? = some ⟨.leading sent', false⟩) (hne : other ≠ id)
    (answer : Except Failure Json) :
    (search.run s [.reply id answer, .reply other answer]).outcome? id =
        some (search.conclude s sent answer) ∧
      (search.run s [.reply id answer, .reply other answer]).outcome? other =
        some (search.conclude (search.step s (.reply id answer)).1 sent' answer) ∧
      (search.run s [.reply id answer, .reply other answer]).calls.length = s.calls.length := by
  have hrun : search.run s [.reply id answer, .reply other answer] =
      (search.step (search.step s (.reply id answer)).1 (.reply other answer)).1 := rfl
  have hcalls := @calls_reply search id s sent hcall answer
  have hwaits : (search.step s (.reply id answer)).1.calls[other]? =
      some ⟨.leading sent', false⟩ := by
    rw [hcalls]
    simp [State.enter, hne.symm, hcall']
  rw [hrun]
  refine ⟨outcome?_step (reply_concludes hcall answer) _, reply_concludes hwaits answer, ?_⟩
  rw [calls_reply hwaits, State.enter, List.length_modify, hcalls, State.enter, List.length_modify]

theorem twoAnswered_ended {q q' : Request} {query query' : Query} {id other : Nat}
    (hvalid : (Validation.ofRequest ({} : Search).checks q).valid = true)
    (hcompiled : Query.ofRequest ({} : Search).grammar q = .ok query)
    (hvalid' : (Validation.ofRequest ({} : Search).checks q').valid = true)
    (hcompiled' : Query.ofRequest ({} : Search).grammar q' = .ok query')
    (hkey : ({} : Search).key q ≠ ({} : Search).key q') (hid : id < 2) (hother : other < 2)
    (hne : other ≠ id) :
    (run {} (State.start {} none none 1000.0) (twoAnswered q q' id other)).Ended := by
  have hfresh : (State.start {} none none 1000.0).Fresh := ⟨rfl, rfl, rfl⟩
  obtain ⟨sent, sent', hcalls, -⟩ :=
    hfresh.leads_both hvalid hcompiled hvalid' hcompiled' hkey
  have hleads : ∀ n, n < 2 → ∃ sent, (run {} (State.start {} none none 1000.0)
      (openings q q')).calls[n]? = some ⟨.leading sent, false⟩ := by
    intro n hn
    rw [hcalls]
    match n, hn with
    | 0, _ => exact ⟨sent, rfl⟩
    | 1, _ => exact ⟨sent', rfl⟩
  obtain ⟨_, hcall⟩ := hleads id hid
  obtain ⟨_, hcall'⟩ := hleads other hother
  obtain ⟨houtcome, houtcome', hlength⟩ :=
    @outcome?_replies {} _ id other _ _ hcall hcall' hne (.ok (.arr []))
  intro n hn
  rw [twoAnswered, run_append] at hn ⊢
  rw [hlength, hcalls] at hn
  have htwo : n < 2 := hn
  by_cases hfirst : n = id
  · rw [hfirst]
    exact ⟨_, houtcome⟩
  · obtain rfl : n = other := by omega
    exact ⟨_, houtcome'⟩

/-! ### Any two orders -/

/-- Calls for different keys come to the same in whatever order they arrive, go on and are answered:
each ends as in any other order, and the cache holds the same in the end. -/
theorem run_independent {cache : Cache Float Stored} {monitor : Option Monitor}
    {metrics : Option Metrics} {now : Float} {events events' : List Event}
    (hcalm : search.Calm backend (State.start cache monitor metrics now) events)
    (hcalm' : search.Calm backend (State.start cache monitor metrics now) events')
    (hsame : (arrivals events).Perm (arrivals events'))
    (hkeys : ((arrivals events).filterMap search.keyOf).Nodup)
    (hended : (search.run (State.start cache monitor metrics now) events).Ended)
    (hended' : (search.run (State.start cache monitor metrics now) events').Ended) :
    (∀ id id' input, (arrivals events)[id]? = some input → (arrivals events')[id']? = some input →
      ∃ outcome outcome',
        (search.run (State.start cache monitor metrics now) events).outcome? id = some outcome ∧
        (search.run (State.start cache monitor metrics now) events').outcome? id' = some outcome' ∧
        outcome.untimed = outcome'.untimed) ∧
    ∀ key, held (search.run (State.start cache monitor metrics now) events).cache key =
      held (search.run (State.start cache monitor metrics now) events').cache key := by
  generalize hstart : State.start cache monitor metrics now = start at *
  have hnew : start.calls = [] := by rw [← hstart]; rfl
  have hidle : start.inflight = [] := by rw [← hstart]; rfl
  have hkeys' : ((arrivals events').filterMap search.keyOf).Nodup :=
    (hsame.filterMap search.keyOf).nodup_iff.1 hkeys
  have hprogress := (hcalm.progress hnew hidle hkeys events (List.prefix_refl _)).1
  have hprogress' := (hcalm'.progress hnew hidle hkeys' events' (List.prefix_refl _)).1
  constructor
  · intro id id' input hinput hinput'
    obtain ⟨outcome, houtcome, hends⟩ := hprogress.ended hended hinput
    obtain ⟨outcome', houtcome', hends'⟩ := hprogress'.ended hended' hinput'
    exact ⟨outcome, outcome', houtcome, houtcome', (hends.ends_alike hends').1⟩
  · intro key
    by_cases hkey : key ∈ (arrivals events).filterMap search.keyOf
    · obtain ⟨input, hmem, hown⟩ := List.mem_filterMap.1 hkey
      obtain ⟨id, hinput⟩ := List.mem_iff_getElem?.1 hmem
      obtain ⟨id', hinput'⟩ := List.mem_iff_getElem?.1 (hsame.mem_iff.1 hmem)
      obtain ⟨outcome, -, hends⟩ := hprogress.ended hended hinput
      obtain ⟨outcome', -, hends'⟩ := hprogress'.ended hended' hinput'
      exact (hends.ends_alike hends').2 key hown
    · have hkey' : key ∉ (arrivals events').filterMap search.keyOf :=
        mt ((hsame.filterMap search.keyOf).mem_iff.2) hkey
      rw [hprogress.others key hkey, hprogress'.others key hkey']

/-- Two calls, one of them first in one run and the other in another. -/
theorem run_independent_crashesLeaks :
    let start := State.start {} none none 1000.0
    let events := twoAnswered crashes leaks 0 1
    let events' := twoAnswered leaks crashes 1 0
    Calm {} (fun _ => .ok (.arr [])) start events ∧ Calm {} (fun _ => .ok (.arr [])) start events' ∧
    (arrivals events).Perm (arrivals events') ∧
    ((arrivals events).filterMap ({} : Search).keyOf).Nodup ∧
    (run {} start events).Ended ∧ (run {} start events').Ended ∧
    (∃ outcome outcome', (run {} start events).outcome? 0 = some outcome ∧
      (run {} start events').outcome? 1 = some outcome' ∧ outcome.untimed = outcome'.untimed) ∧
    ∀ key, held (run {} start events).cache key = held (run {} start events').cache key := by
  intro start events events'
  have hcalm : Calm {} (fun _ => .ok (.arr [])) start events := twoAnswered_calm _ _ _ _
  have hcalm' : Calm {} (fun _ => .ok (.arr [])) start events' := twoAnswered_calm _ _ _ _
  have hsame : (arrivals events).Perm (arrivals events') := List.Perm.swap _ _ _
  have hkey : ({} : Search).key crashes ≠ ({} : Search).key leaks := key_crashes_ne_leaks {}
  have hkeys : ((arrivals events).filterMap ({} : Search).keyOf).Nodup := by
    have harrivals : (arrivals events).filterMap ({} : Search).keyOf =
        [({} : Search).key crashes, ({} : Search).key leaks] := rfl
    rw [harrivals]
    simpa using hkey
  have hvalid : (Validation.ofRequest ({} : Search).checks crashes).valid = true := by rfl
  have hvalid' : (Validation.ofRequest ({} : Search).checks leaks).valid = true := by rfl
  have hcompiled : Query.ofRequest ({} : Search).grammar crashes = .ok ⟨"#crash", none, []⟩ := by
    rfl
  have hcompiled' : Query.ofRequest ({} : Search).grammar leaks = .ok ⟨"#leak", none, []⟩ := by
    rfl
  have hended : (run {} start events).Ended :=
    twoAnswered_ended hvalid hcompiled hvalid' hcompiled' hkey (by decide) (by decide) (by decide)
  have hended' : (run {} start events').Ended :=
    twoAnswered_ended hvalid' hcompiled' hvalid hcompiled hkey.symm (by decide) (by decide)
      (by decide)
  obtain ⟨houtcomes, hheld⟩ := run_independent hcalm hcalm' hsame hkeys hended hended'
  exact ⟨hcalm, hcalm', hsame, hkeys, hended, hended',
    houtcomes 0 1 (.request crashes) rfl rfl, hheld⟩

/-! ### Results that outlast the clock -/

section Untold

variable {ttl : Int} {cause : Overflow}

/-- A store into an empty cache that is not swept yet is carried out. -/
theorem keep_undue (httl : search.settings.resultTtl = .int ttl) (hpos : 0 < ttl)
    (hempty : s.cache.entries = [])
    (hundue : s.cache.setsSinceSweep + 1 < s.cache.policy.sweepInterval)
    (hfew : 1 ≤ search.settings.sweepThreshold) (key : String) (result : SearchResult) :
    search.keep s key result = (.ok (), { s with cache := { s.cache with
      entries := [⟨key, .result result, s.now, ttl, 0⟩]
      counters.sets := s.cache.counters.sets + 1
      setsSinceSweep := s.cache.setsSinceSweep + 1 } }, []) := by
  have hplaced : s.cache.place ⟨key, .result result, s.now, ttl, 0⟩ =
      ({ s.cache with entries := [⟨key, .result result, s.now, ttl, 0⟩] }, []) := by
    simp [Cache.place, Cache.makeRoom, Cache.stored?, hempty]
  have hsmall : ¬ search.settings.sweepThreshold < ((1 : Nat) : Int) := by omega
  simp only [keep, httl, insert_ttl hpos, Cache.store, hplaced, if_neg (Nat.not_le_of_lt hundue),
    Except.mapError, Cache.size, List.length_singleton, if_neg hsmall]

/-- Of two answers into an empty cache that is swept behind the second, the second fails. -/
theorem replies_untold {other : CallId} {sent sent' : Sent} {value : Json} {records : List Json}
    (hcall : s.calls[id]? = some ⟨.leading sent, false⟩)
    (hcall' : s.calls[other]? = some ⟨.leading sent', false⟩) (hne : other ≠ id)
    (hrecords : recordsOf value = some records)
    (httl : search.settings.resultTtl = .int ttl) (hpos : 0 < ttl)
    (huntold : ∀ now : Float, Timeline.after now ttl = .error cause)
    (hempty : s.cache.entries = [])
    (hsecond : s.cache.policy.sweepInterval = s.cache.setsSinceSweep + 2)
    (hfew : 1 ≤ search.settings.sweepThreshold) :
    (search.run s [.reply id (.ok value), .reply other (.ok value)]).outcome? id =
        some (.returned (search.resultOf s.now sent records)) ∧
      (search.run s [.reply id (.ok value), .reply other (.ok value)]).outcome? other =
        some (.raised (.cache (.overflow cause))) := by
  have hkeep := keep_undue httl hpos hempty (by omega) hfew sent.flight.key
    (search.resultOf s.now sent records)
  have hcache := @cache_reply search s id sent value records hcall hrecords
  rw [hkeep] at hcache
  generalize hthen : (search.step s (.reply id (.ok value))).1 = s' at hcache
  have hfails : (search.keep s' sent'.flight.key (search.resultOf s'.now sent' records)).1 =
      .error (.overflow cause) := by
    refine (keep_untold httl hpos (huntold _) ?_ ?_ _ _).1
    · rw [hcache]
      intro e he
      obtain rfl := List.mem_singleton.1 he
      simp only [Cache.Entry.isExpired, Cache.Entry.expiresAt, huntold]
      rfl
    · rw [hcache]
      exact Nat.le_of_eq hsecond
  obtain ⟨houtcome, houtcome', -⟩ :=
    @outcome?_replies search s id other sent sent' hcall hcall' hne (.ok value)
  rw [houtcome, houtcome', hthen]
  simp only [conclude, hrecords, hkeep, hfails, and_self]

end Untold

/-- Nothing limits how long results are kept. Where no clock tells when they expire and every second
store is followed by a sweep, the call whose answer comes second ends with the error of that sweep,
whichever of the two it is. -/
theorem twoAnswered_differ :
    let start := emptyUnder { sweepInterval := 2 }
    endlessly.key crashes ≠ endlessly.key leaks ∧ start.cache.entries = [] ∧
    2 ≤ start.cache.policy.maxKeys ∧
    (∃ result, (endlessly.run start (twoAnswered crashes leaks 0 1)).outcome? 0 =
      some (.returned result)) ∧
    (endlessly.run start (twoAnswered crashes leaks 0 1)).outcome? 1 =
      some (.raised (.cache (.overflow .integer))) ∧
    (endlessly.run start (twoAnswered crashes leaks 1 0)).outcome? 0 =
      some (.raised (.cache (.overflow .integer))) ∧
    ∃ result, (endlessly.run start (twoAnswered crashes leaks 1 0)).outcome? 1 =
      some (.returned result) := by
  intro start
  have hfresh : start.Fresh := ⟨rfl, rfl, rfl⟩
  have hkey := key_crashes_ne_leaks endlessly
  have hvalid : (Validation.ofRequest endlessly.checks crashes).valid = true := by rfl
  have hvalid' : (Validation.ofRequest endlessly.checks leaks).valid = true := by rfl
  have hcompiled : Query.ofRequest endlessly.grammar crashes = .ok ⟨"#crash", none, []⟩ := by rfl
  have hcompiled' : Query.ofRequest endlessly.grammar leaks = .ok ⟨"#leak", none, []⟩ := by rfl
  obtain ⟨sent, sent', hcalls, hcache, -⟩ :=
    hfresh.leads_both hvalid hcompiled hvalid' hcompiled' hkey
  have httl : endlessly.settings.resultTtl = .int Cache.endless := rfl
  have hpos : 0 < Cache.endless := by decide +kernel
  have hfew : 1 ≤ endlessly.settings.sweepThreshold := by decide
  have hrecords : recordsOf (.arr []) = some [] := rfl
  have hcall : (endlessly.run start (openings crashes leaks)).calls[0]? =
      some ⟨.leading sent, false⟩ := by
    rw [hcalls]
    rfl
  have hcall' : (endlessly.run start (openings crashes leaks)).calls[1]? =
      some ⟨.leading sent', false⟩ := by
    rw [hcalls]
    rfl
  have hempty : (endlessly.run start (openings crashes leaks)).cache.entries = [] := by
    rw [hcache]
    rfl
  have hsecond : (endlessly.run start (openings crashes leaks)).cache.policy.sweepInterval =
      (endlessly.run start (openings crashes leaks)).cache.setsSinceSweep + 2 := by
    rw [hcache]
    rfl
  obtain ⟨hfirst, hfails⟩ := replies_untold hcall hcall' (by decide) hrecords httl hpos
    Cache.after_endless hempty hsecond hfew
  obtain ⟨hfirst', hfails'⟩ := replies_untold hcall' hcall (by decide) hrecords httl hpos
    Cache.after_endless hempty hsecond hfew
  simp only [twoAnswered, run_append]
  exact ⟨hkey, rfl, by decide, ⟨_, hfirst⟩, hfails, hfails', _, hfirst'⟩

end IssueSearch.Search
