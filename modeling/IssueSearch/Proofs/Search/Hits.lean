import IssueSearch.Proofs.Cache.Key
import IssueSearch.Proofs.Query.Alike
import IssueSearch.Proofs.Search.Fetch
import IssueSearch.Proofs.Search.SingleFlight
import IssueSearch.Proofs.Search.Turn
/-!
Results served from the cache. Where nothing but answers is written, a served result is the one
that the last answer under its key gave to the leader of a request alike, it has not expired, and
the query and the page asked for are those of the request that it is served to.
-/
namespace IssueSearch.Search

variable (search : Search)

/-- A request that a call hands over in the course of some events. -/
def Asks (events : List Event) (r : Request) : Prop :=
  ∃ input, .arrive input ∈ events ∧ search.requestOf input = .ok r

/-- No two requests of a run have one digest but by having one text. -/
def NoCollision (events : List Event) : Prop :=
  ∀ r r', search.Asks events r → search.Asks events r' →
    Digest.short r.toJson.canonicalText = Digest.short r'.toJson.canonicalText →
      r.toJson.canonicalText = r'.toJson.canonicalText

/-- A flight of a request that was handed over, under the key of that request. -/
def Handed (events : List Event) (flight : Flight) : Prop :=
  flight.key = search.key flight.request ∧ search.Asks events flight.request

/-- What a phase knows about the run so far: where its request comes from, and that what is sent to
the backend is the compiled request. -/
def Phase.Honest (events : List Event) : Phase → Prop
  | .ready input => .arrive input ∈ events
  | .following flight _ => search.Handed events flight
  | .leading sent => search.Handed events sent.flight ∧
      Query.ofRequest search.grammar sent.flight.request = .ok sent.query ∧
      sent.call = search.backendCall sent.flight.request sent.query
  | .finished _ => True

/-- The phases of a call that has had the lead. -/
def Phase.HasLed : Phase → Prop
  | .leading _ => True
  | .finished (.returned result) => result.metadata.cached = false
  | .finished _ => True
  | _ => False

/-- A lookup that found a result of ours, and the result as it was given to the call. -/
structure Serves (s : State) (id : CallId) (r : Request) (entry : Cache.Entry Float Stored)
    (result : SearchResult) : Prop where
  asked : ∃ input, s.calls[id]? = some ⟨.ready input, false⟩ ∧ search.requestOf input = .ok r
  looked : ∃ left, s.cache.get? s.now (search.key r) = .ok (some entry, left)
  served : ∃ stored, entry.payload = .result stored ∧ result = stored.fromCache r

/-- The part of a run in which a result served from the cache was made: the answer that it was made
of, what came before that answer, and what came between the answer and the lookup. -/
structure Service where
  earlier : List Event
  answer : Event
  between : List Event
  later : List Event
  leader : CallId
  sent : Sent
  records : List Json
  /-- The request that the result is served to. -/
  request : Request

namespace Service

variable (start : State) (v : Service)

/-- The state that the answer comes to. -/
def fetchState : State := search.run start v.earlier

/-- The state that the lookup comes to. -/
def lookupState : State := search.run start (v.earlier ++ v.answer :: v.between)

/-- What the leader makes of the answer. -/
def fetched : SearchResult := search.resultOf (v.fetchState search start).now v.sent v.records

/-- What makes it right to serve a result. -/
structure Sound (ttl : Int) (events : List Event) (id : CallId) (result : SearchResult) :
    Prop where
  split : events = v.earlier ++ v.answer :: v.between ++ .resume id :: v.later
  /-- The answer was taken in by a leader, and is the last that was stored under its key. -/
  last : search.LastFetch start v.earlier v.answer v.between v.leader v.sent v.records
  /-- The leader returned what it made of the answer. -/
  returned : (search.run start (v.earlier ++ [v.answer])).outcome? v.leader =
    some (.returned (v.fetched search start))
  /-- The served result is that one, marked. -/
  result_eq : result = { v.fetched search start with
    metadata := { (v.fetched search start).metadata with cached := true } }
  asked : ∃ input, (v.lookupState search start).calls[id]? = some ⟨.ready input, false⟩ ∧
    search.requestOf input = .ok v.request
  /-- Both requests are alike, under one key. -/
  alike : v.sent.flight.request.Alike v.request
  key_eq : v.sent.flight.key = search.key v.request
  /-- What was sent to the backend is what the request that is served compiles to. -/
  compiled : Query.ofRequest search.grammar v.request = .ok v.sent.query
  call_eq : v.sent.call = search.backendCall v.request v.sent.query
  /-- The time to live has not run out. -/
  unexpired : ∃ deadline, Timeline.after (v.fetchState search start).now ttl = .ok deadline ∧
    Timeline.reached (v.lookupState search start).now deadline = false

end Service

variable {search} {start s : State}

theorem Asks.mono {events events' : List Event} {r : Request} (hasks : search.Asks events r)
    (hsubset : events ⊆ events') : search.Asks events' r := by
  obtain ⟨input, hmem, hasked⟩ := hasks
  exact ⟨input, hsubset hmem, hasked⟩

theorem Phase.Honest.mono {events events' : List Event} {phase : Phase}
    (hhonest : phase.Honest search events) (hsubset : events ⊆ events') :
    phase.Honest search events' := by
  cases phase with
  | ready input => exact hsubset hhonest
  | following flight leader => exact ⟨hhonest.1, hhonest.2.mono hsubset⟩
  | leading sent => exact ⟨⟨hhonest.1.1, hhonest.1.2.mono hsubset⟩, hhonest.2⟩
  | finished outcome => trivial

theorem Brings.handed {events : List Event} {id : CallId} {flight : Flight}
    (hbrings : search.Brings s id flight)
    (hhonest : ∀ id phase, s.phase? id = some phase → phase.Honest search events) :
    search.Handed events flight := by
  cases hbrings with
  | fresh called asked =>
      exact ⟨rfl, _, hhonest id _ (State.phase?_of_called called), asked⟩
  | again called ended => exact hhonest id _ (State.phase?_of_called called)

/-- A step leaves every phase honest, with the event added to what is known. -/
theorem step_honest {events : List Event}
    (hhonest : ∀ id phase, s.phase? id = some phase → phase.Honest search events)
    (event : Event) : ∀ id phase, (search.step s event).1.phase? id = some phase →
      phase.Honest search (events ++ [event]) := by
  intro id phase hphase
  rcases (search.step_move s event).turn hphase with hold | hturn
  · exact (hhonest id phase hold).mono (List.subset_append_left _ _)
  · cases hturn with
    | arrive input => exact List.mem_append_right _ List.mem_cons_self
    | cancel | raise | hit | adopt | fetch => trivial
    | follow brings found =>
        have hhanded := brings.handed hhonest
        exact ⟨hhanded.1, hhanded.2.mono (List.subset_append_left _ _)⟩
    | lead brings valid compiled =>
        have hhanded := brings.handed hhonest
        exact ⟨⟨hhanded.1, hhanded.2.mono (List.subset_append_left _ _)⟩, compiled, rfl⟩

theorem run_honest (hnew : start.calls = []) (events : List Event) :
    ∀ id phase, (search.run start events).phase? id = some phase →
      phase.Honest search events := by
  induction events using List.reverseRecOn with
  | nil =>
      intro id phase hphase
      simp [run, State.phase?, hnew] at hphase
  | append_singleton events event ih =>
      rw [run_concat]
      exact step_honest ih event

/-- A call that has had the lead never ends with a result from the cache. -/
theorem step_hasLed {id : CallId} {phase : Phase} (hphase : s.phase? id = some phase)
    (hled : phase.HasLed) (event : Event) :
    ∃ phase', (search.step s event).1.phase? id = some phase' ∧ phase'.HasLed := by
  obtain ⟨phase', hphase'⟩ := (search.step_move s event).phase?_isSome hphase
  refine ⟨phase', hphase', ?_⟩
  have hcalled : ∀ {other requested}, s.calls[id]? = some ⟨other, requested⟩ → other.HasLed := by
    intro other requested hcall
    rw [State.phase?_of_called hcall] at hphase
    cases hphase
    exact hled
  rcases (search.step_move s event).turn hphase' with hsame | hturn
  · rw [hphase] at hsame
    cases hsame
    exact hled
  · cases hturn with
    | arrive input =>
        simp [State.phase?] at hphase
    | cancel | raise | lead => trivial
    | hit called asked looked payload => exact (hcalled called).elim
    | follow brings found =>
        cases brings with
        | fresh called asked => exact (hcalled called).elim
        | again called ended => exact (hcalled called).elim
    | adopt called ended uncancelled => exact (hcalled called).elim
    | fetch called answered => rfl

/-- Whoever is followed has had the lead. -/
def State.FollowsLed (s : State) : Prop :=
  ∀ id flight leader, s.phase? id = some (.following flight leader) →
    ∃ phase, s.phase? leader = some phase ∧ phase.HasLed

theorem step_followsLed (hflights : s.SingleFlight) (hled : s.FollowsLed) (event : Event) :
    (search.step s event).1.FollowsLed := by
  intro id flight leader hphase
  rcases (search.step_move s event).turn hphase with hold | hturn
  · obtain ⟨phase, hleader, hhasLed⟩ := hled id flight leader hold
    exact step_hasLed hleader hhasLed event
  · cases hturn with
    | follow brings found =>
        obtain ⟨sent, hleads, -⟩ := (hflights.lookup_iff flight.key leader).1 found
        exact step_hasLed hleads trivial _

theorem run_followsLed (hnew : start.calls = []) (hidle : start.inflight = [])
    (events : List Event) : (search.run start events).FollowsLed := by
  have hflights : start.SingleFlight := State.singleFlight_of_idle hnew hidle
  induction events using List.reverseRecOn with
  | nil =>
      intro id flight leader hphase
      simp [run, State.phase?, hnew] at hphase
  | append_singleton events event ih =>
      rw [run_concat]
      exact step_followsLed (run_singleFlight events hflights) ih event

/-- A call that ends with a result from the cache has found it there itself. -/
theorem step_serves (hled : s.FollowsLed) {event : Event} {id : CallId} {result : SearchResult}
    (houtcome : (search.step s event).1.outcome? id = some (.returned result))
    (hcached : result.metadata.cached = true) :
    s.outcome? id = some (.returned result) ∨
      event = .resume id ∧ ∃ r entry, search.Serves s id r entry result := by
  have hphase := State.outcome?_eq_some_iff.1 houtcome
  rcases (search.step_move s event).turn hphase with hold | hturn
  · exact .inl (State.outcome?_eq_some_iff.2 hold)
  · cases hturn with
    | @hit _ input r entry stored left called asked looked payload =>
        exact .inr ⟨rfl, r, entry, ⟨input, called, asked⟩, ⟨left, looked⟩, ⟨stored, payload, rfl⟩⟩
    | adopt called ended uncancelled =>
        obtain ⟨phase, hleader, hhasLed⟩ := hled id _ _ (State.phase?_of_called called)
        rw [State.outcome?_eq_some_iff.1 ended] at hleader
        cases hleader
        exact absurd hcached (by simp [show result.metadata.cached = false from hhasLed])
    | fetch called answered => cases hcached

theorem run_serves (hnew : start.calls = []) (hidle : start.inflight = [])
    (events : List Event) : ∀ id result,
      (search.run start events).outcome? id = some (.returned result) →
      result.metadata.cached = true →
      ∃ earlier later r entry, events = earlier ++ .resume id :: later ∧
        search.Serves (search.run start earlier) id r entry result := by
  induction events using List.reverseRecOn with
  | nil =>
      intro id result houtcome
      simp [run, State.outcome?, State.phase?, hnew] at houtcome
  | append_singleton events event ih =>
      intro id result houtcome hcached
      rw [run_concat] at houtcome
      rcases step_serves (run_followsLed hnew hidle events) houtcome hcached with
        hold | ⟨rfl, r, entry, hserves⟩
      · obtain ⟨earlier, later, r, entry, rfl, hserves⟩ := ih id result hold hcached
        exact ⟨earlier, later ++ [event], r, entry, by simp, hserves⟩
      · exact ⟨events, [], r, entry, rfl, hserves⟩

/-- What all keys of a search begin with. -/
def keyStart (search : Search) : String :=
  search.settings.cacheDomain ++ ":" ++ search.settings.cacheEndpoint

/-- A key tells what stands before the digest, and the digest of the request. -/
theorem key_eq_iff_start {search other : Search} {r r' : Request} :
    search.key r = other.key r' ↔ search.keyStart = other.keyStart ∧
      Digest.short r.toJson.canonicalText = Digest.short r'.toJson.canonicalText := by
  have hdigest : ∀ r : Request,
      Cache.paramsDigest r.toJson = Digest.short r.toJson.canonicalText := fun r => rfl
  constructor
  · intro heq
    obtain ⟨hstart, hshort⟩ := Cache.digest_eq_of_key heq
    rw [hdigest, hdigest] at hshort
    exact ⟨hstart, hshort⟩
  · rintro ⟨hstart, hshort⟩
    simp only [keyStart] at hstart
    rw [key, key, Cache.key, Cache.key, hstart, hdigest, hdigest, hshort]

theorem key_eq_iff_short {r r' : Request} : search.key r = search.key r' ↔
    Digest.short r.toJson.canonicalText = Digest.short r'.toJson.canonicalText := by
  rw [key_eq_iff_start]
  exact and_iff_right rfl

theorem key_inj_of_noCollision {events : List Event} (hdistinct : search.NoCollision events)
    {r r' : Request} (hr : search.Asks events r) (hr' : search.Asks events r')
    (hkey : search.key r = search.key r') : r.Alike r' :=
  Request.alike_of_canonicalText (hdistinct r r' hr hr' (key_eq_iff_short.1 hkey))

/-- Every result that is served from the cache is served soundly, in every state that a run of
searches with nothing else writing to their cache can reach. -/
theorem run_served_sound {cache : Cache Float Stored} {monitor : Option Monitor}
    {metrics : Option Metrics} {now : Float} {events : List Event} {ttl : Int}
    (hempty : cache.entries = []) (httl : search.settings.resultTtl = .int ttl) (hpos : 0 < ttl)
    (hwrites : ∀ event ∈ events, event.writes = false)
    (hdistinct : search.NoCollision events) {id : CallId} {result : SearchResult}
    (houtcome : (search.run (State.start cache monitor metrics now) events).outcome? id =
      some (.returned result)) (hcached : result.metadata.cached = true) :
    ∃ v : Service, v.Sound search (State.start cache monitor metrics now) ttl events id result := by
  have hnew : (State.start cache monitor metrics now).calls = [] := rfl
  have hstart : (State.start cache monitor metrics now).cache.entries = [] := hempty
  obtain ⟨before, later, r, entry, rfl, hserves⟩ :=
    run_serves hnew rfl events id result houtcome hcached
  generalize State.start cache monitor metrics now = start at *
  obtain ⟨⟨input, hcalled, hasked⟩, ⟨left, hlooked⟩, stored, hpayload, rfl⟩ := hserves
  obtain ⟨old, hentry, hexpired, rfl, -⟩ := Cache.get?_eq_some hlooked
  obtain ⟨hmem, hkey⟩ := Cache.stored?_some hentry
  have hstocked := run_stocked httl hpos hstart
    (fun event hevent => hwrites event (List.mem_append_left _ hevent)) old hmem
  cases hstocked with
  | @fetched earlier between answer leader sent records last hits =>
      have hlead : Phase.Honest search earlier (.leading sent) :=
        run_honest hnew earlier leader _ (State.phase?_of_called last.fetches.called)
      obtain ⟨⟨hownkey, hasks⟩, hcompiled, hcall⟩ := hlead
      have hkeys : search.key sent.flight.request = search.key r := hownkey.symm.trans hkey
      have halike : sent.flight.request.Alike r := by
        refine key_inj_of_noCollision hdistinct (hasks.mono ?_) ⟨input, ?_, hasked⟩ hkeys
        · intro event hevent
          simp [hevent]
        · exact List.mem_append_left _ (run_honest hnew _ id _ (State.phase?_of_called hcalled))
      -- The entry could be looked at, so times to live are doubles, and no store of the run failed.
      obtain ⟨deadline, hafter, hunexpired⟩ := Cache.Entry.isExpired_eq_ok hexpired
      obtain ⟨double, hdouble⟩ := nearest_eq_ok hafter
      have hearlier : ∀ e ∈ (search.run start earlier).cache.entries, e.ttl = ttl := by
        intro e he
        refine (run_stocked httl hpos hstart (fun event hevent => ?_) e he).ttl_eq
        exact hwrites event (by simp [hevent])
      have hstored : stored = search.resultOf (search.run start earlier).now sent records := by
        cases hpayload
        rfl
      subst hstored
      refine ⟨⟨earlier, answer, between, later, leader, sent, records, r⟩, ?_⟩
      exact {
        split := by simp
        last
        returned := by
          rw [run_concat]
          exact last.fetches.outcome?_step httl hpos hdouble hearlier
        result_eq := by
          rw [SearchResult.fromCache, ← halike.includeMetadata]
          rfl
        asked := ⟨input, hcalled, hasked⟩
        alike := halike
        key_eq := hkey
        compiled := Query.ofRequest_congr halike hcompiled
        call_eq := by rw [hcall, backendCall_congr _ halike]
        unexpired := ⟨deadline, hafter, hunexpired⟩ }

/-- What the key of a request by a text and an offset is made from. -/
theorem canonicalText_byText (text : String) (offset : Option Nat) :
    ({ textSearch := some text, pagination := { offset } } : Request).toJson.canonicalText =
      "\x7b\"fieldSelector\":null,\"filters\":[],\"includeMetadata\":false,\"pagination\":\x7b" ++
        "\"limit\":null,\"offset\":" ++
        (Json.ofOption (fun (n : Nat) => .int n) offset).canonicalText ++
        "\x7d,\"scopeId\":null,\"sorting\":[],\"textSearch\":" ++
        (Json.str text).canonicalText ++ "\x7d" := by
  rw [Json.canonicalText, ← String.toList_inj]
  simp [Request.toJson, Pagination.toJson, Json.ofOption, Json.canonicalText, Json.chars,
    Json.memberChars, Json.itemChars, Json.canonical, Json.Spacing.arrange, Json.Spacing.member,
    Json.stringChars, Json.escapeChar, List.mergeSort]

/-- A request by a text only. -/
def crashes : Request := { textSearch := some "crash" }

theorem after_minute : Timeline.after (1000.0 : Float) 60 = .ok (1000.0 + Decimal.ofInt 60) := by
  have hsmall : ¬ Decimal.beyondDoubles ≤ (60 : Int).natAbs := by decide +kernel
  simp only [Timeline.after, Decimal.nearest, if_neg hsmall]
  rfl

/-- What the leader of its flight sends at the beginning of the clock. -/
def crashesSent : Sent where
  flight := flightOf {} crashes 1000.0
  query := ⟨"#crash", none, []⟩
  call := backendCall {} crashes ⟨"#crash", none, []⟩
  warnings := (Validation.ofRequest ({} : Search).checks crashes).warnings
  sentAt := 1000.0

/-- The state in which the flight is led. -/
def crashesLed : State where
  cache := { counters.misses := 1 }
  calls := [{ phase := .leading crashesSent }]
  inflight := [(crashesSent.flight.key, 0)]
  now := 1000.0

/-- The lead of the flight can be taken as long as there is none. -/
theorem board_crashes (hnow : s.now = 1000.0) (hfree : s.inflight = []) (id : CallId) :
    (board {} s id crashesSent.flight).1 =
      { s with inflight := [(crashesSent.flight.key, id)] }.enter id (.leading crashesSent) := by
  have hvalid : (Validation.ofRequest ({} : Search).checks crashesSent.flight.request).valid =
      true := by rfl
  have hcompiled : Query.compile ({} : Search).grammar crashesSent.flight.request =
      ([], .ok ⟨"#crash", none, []⟩) := by rfl
  simp only [board, hfree, List.lookup_nil, lead, hvalid, hcompiled, if_true, hnow]
  rfl

/-- The flight is joined as long as it is led. -/
theorem board_crashes_led {leader : CallId}
    (hled : s.inflight = [(crashesSent.flight.key, leader)]) (id : CallId) :
    (board {} s id crashesSent.flight).1 = s.enter id (.following crashesSent.flight leader) := by
  have hlookup : s.inflight.lookup crashesSent.flight.key = some leader := by
    rw [hled]
    exact List.lookup_cons_self
  simp only [board, hlookup]

/-- A search for crashes misses an empty cache. -/
theorem resume_crashes {id : CallId}
    (hcall : s.calls[id]? = some ⟨.ready (.request crashes), false⟩) (hnow : s.now = 1000.0)
    (hempty : s.cache.entries = []) :
    (step {} s (.resume id)).1 = (board {} { s with
      cache := { s.cache with counters.misses := s.cache.counters.misses + 1 } } id
        crashesSent.flight).1 := by
  have hlooked : s.cache.get? s.now (key {} crashes) = .ok (none,
      { s.cache with counters.misses := s.cache.counters.misses + 1 }) := by
    simp only [Cache.get?, Cache.live, Cache.stored?, hempty, List.find?_nil, Except.map,
      Cache.countLookup]
  have hflight : flightOf {} crashes s.now = crashesSent.flight := by
    rw [hnow]
    rfl
  rw [← hflight]
  simp only [step, resume, hcall, requestOf, begin, hlooked]
  rfl

theorem run_crashes_led : run {} (State.start {} none none 1000.0)
    [.arrive (.request crashes), .resume 0] = crashesLed := by
  have hrun : run {} (State.start {} none none 1000.0) [.arrive (.request crashes), .resume 0] =
      (step {} { cache := {}, calls := [⟨.ready (.request crashes), false⟩], now := 1000.0 }
        (.resume 0)).1 := rfl
  rw [hrun, resume_crashes rfl rfl rfl, board_crashes rfl rfl]
  rfl

def crashesFound : SearchResult := resultOf {} 1000.0 crashesSent []

theorem isExpired_fresh (sent : Sent) (records : List Json) :
    (fetchedEntry {} 1000.0 60 sent records).isExpired 1000.0 = .ok false := by
  have hstale : Timeline.reached (1000.0 : Float) (1000.0 + Decimal.ofInt 60) = false := by
    decide +kernel
  simp only [Cache.Entry.isExpired, Cache.Entry.expiresAt, fetchedEntry, after_minute, Except.map,
    hstale]

/-- The state in which the only call leads a flight. -/
def ledBy (sent : Sent) : State where
  cache := { counters.misses := 1 }
  calls := [{ phase := .leading sent }]
  inflight := [(sent.flight.key, 0)]
  now := 1000.0

/-- The state in which it has got an answer without records. -/
def landedBy (sent : Sent) : State where
  cache := {
    entries := [fetchedEntry {} 1000.0 60 sent []]
    counters := { misses := 1, sets := 1 }
    setsSinceSweep := 1 }
  calls := [{ phase := .finished (.returned (resultOf {} 1000.0 sent [])) }]
  now := 1000.0

theorem step_landedBy (sent : Sent) :
    (step {} (ledBy sent) (.reply 0 (.ok (.arr [])))).1 = landedBy sent := by
  have hgone : (ledBy sent).inflight.filter (·.1 != sent.flight.key) = [] := by
    simp [ledBy]
  have hstep : (step {} (ledBy sent) (.reply 0 (.ok (.arr [])))).1 =
      { landedBy sent with
        inflight := (ledBy sent).inflight.filter (·.1 != sent.flight.key) } := rfl
  rw [hstep, hgone]
  rfl

/-- As long as the clock stands, what a leader has stored is found. -/
theorem get?_fresh {cache : Cache Float Stored} {key : String} {sent : Sent} {records : List Json}
    (hfound : cache.stored? key = some (fetchedEntry {} 1000.0 60 sent records)) :
    cache.get? 1000.0 key =
      .ok (Cache.countLookup (some (fetchedEntry {} 1000.0 60 sent records), cache)) := by
  simp only [Cache.get?, Cache.live, hfound]
  rw [isExpired_fresh]
  rfl

theorem get?_landedBy (sent : Sent) : (landedBy sent).cache.get? 1000.0 sent.flight.key =
    .ok (Cache.countLookup
      (some (fetchedEntry {} 1000.0 60 sent []), (landedBy sent).cache)) := by
  refine get?_fresh ?_
  simp [Cache.stored?, landedBy, fetchedEntry]

/-- A call that begins ends with the result that it finds. -/
theorem resume_found {id : CallId} {r : Request} {entry : Cache.Entry Float Stored}
    {stored : SearchResult} {left : Cache Float Stored}
    (hcall : s.calls[id]? = some ⟨.ready (.request r), false⟩)
    (hlooked : s.cache.get? s.now (search.key r) = .ok (some entry, left))
    (hpayload : entry.payload = .result stored) :
    (search.step s (.resume id)).1.outcome? id = some (.returned (stored.fromCache r)) := by
  simp only [step, resume, hcall, requestOf, begin, hlooked, hpayload]
  rw [State.outcome?_eq_some_iff, State.phase?_eq_of_calls (State.calls_account _ _ _)]
  exact State.phase?_enter_self (s := { s with cache := left }) hcall _

def crashesLanded : State where
  cache := {
    entries := [fetchedEntry {} 1000.0 60 crashesSent []]
    counters := { misses := 1, sets := 1 }
    setsSinceSweep := 1 }
  calls := [{ phase := .finished (.returned crashesFound) }]
  now := 1000.0

theorem step_crashes_landed :
    (step {} crashesLed (.reply 0 (.ok (.arr [])))).1 = crashesLanded :=
  step_landedBy crashesSent

/-- The request is asked for, answered, and asked for again. -/
def askedTwice : List Event := [.arrive (.request crashes), .resume 0, .reply 0 (.ok (.arr [])),
  .arrive (.request crashes), .resume 1]

theorem run_askedTwice : (run {} (State.start {} none none 1000.0) askedTwice).outcome? 1 =
    some (.returned (crashesFound.fromCache crashes)) := by
  have hrun : run {} (State.start {} none none 1000.0) askedTwice =
      run {} (step {} (run {} (State.start {} none none 1000.0)
        [.arrive (.request crashes), .resume 0]) (.reply 0 (.ok (.arr [])))).1
        [.arrive (.request crashes), .resume 1] := rfl
  rw [hrun, run_crashes_led, step_crashes_landed]
  exact resume_found rfl (get?_landedBy crashesSent) rfl

theorem run_served_sound_askedTwice :
    (run {} (State.start {} none none 1000.0) askedTwice).outcome? 1 =
      some (.returned (crashesFound.fromCache crashes)) ∧
    ∃ v : Service, v.Sound {} (State.start {} none none 1000.0) 60 askedTwice 1
      (crashesFound.fromCache crashes) := by
  have hdistinct : NoCollision {} askedTwice := by
    have hcrashes : ∀ r, Asks {} askedTwice r → r = crashes := by
      rintro r ⟨input, hmem, hasked⟩
      obtain rfl : input = .request crashes := by simpa [askedTwice] using hmem
      exact (Except.ok.inj hasked).symm
    intro r r' hr hr' _
    rw [hcrashes r hr, hcrashes r' hr']
  have hwrites : ∀ event ∈ askedTwice, event.writes = false := by
    simp [askedTwice, Event.writes]
  exact ⟨run_askedTwice, run_served_sound rfl rfl (by decide) hwrites hdistinct run_askedTwice rfl⟩

end IssueSearch.Search
