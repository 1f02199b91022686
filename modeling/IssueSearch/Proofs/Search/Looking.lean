import IssueSearch.Proofs.Cache.Lookup
import IssueSearch.Proofs.Search.Ending
/-!
What a call has seen of the cache. Whoever is about a flight has looked its key up once, when it
began, and that lookup has left nothing under the key. A result that is held later has been stored
in between.
-/
namespace IssueSearch.Search

/-- The flight that a phase is about. -/
def Phase.flight? : Phase → Option Flight
  | .following flight _ => some flight
  | .leading sent => some sent.flight
  | .ready _ | .finished _ => none

/-- The cache holds a result of ours under a key, and the result has not expired. -/
def State.Holds (s : State) (key : String) : Prop :=
  ∃ e result, s.cache.stored? key = some e ∧ e.payload = .result result ∧
    e.isExpired s.now = .ok false

/-- An event stores something under a key. -/
def Stores (s : State) (event : Event) (key : String) : Prop :=
  (∃ id sent records, Fetches s event id sent records ∧ sent.flight.key = key) ∨
    ∃ payload ttl, event = .cache (.set key payload ttl)

variable {search : Search} {s s' : State} {event : Event} {id : CallId} {key : String}

/-! ### Nothing under a key -/

/-- No entry of a cache has a key. -/
def Lacks (cache : Cache Float Stored) (key : String) : Prop := ∀ e ∈ cache.entries, e.key ≠ key

/-- A state that no call has come to, with an empty cache. -/
structure State.Fresh (s : State) : Prop where
  calls : s.calls = []
  inflight : s.inflight = []
  entries : s.cache.entries = []

theorem State.Fresh.lacks (hfresh : s.Fresh) (key : String) : Lacks s.cache key := by
  intro e he
  rw [hfresh.entries] at he
  cases he

theorem Lacks.keeps {cache left : Cache Float Stored} (hlacks : Lacks cache key)
    (hkeeps : Cache.Keeps cache left) : Lacks left key := by
  intro e he
  obtain ⟨old, hold, hsame⟩ := hkeeps e he
  rw [hsame]
  exact hlacks old hold

theorem Lacks.looked {cache : Cache Float Stored} (hlacks : Lacks cache key) (now : Float) :
    cache.get? now key =
      .ok (none, { cache with counters.misses := cache.counters.misses + 1 }) := by
  have hmissing : cache.stored? key = none := by
    rw [Cache.stored?_eq_none_iff, Cache.keys, List.mem_map]
    rintro ⟨e, hmem, hkey⟩
    exact hlacks e hmem hkey
  simp only [Cache.get?, Cache.live, hmissing]
  rfl

theorem Lacks.not_holds (hlacks : Lacks s.cache key) : ¬ s.Holds key := by
  rintro ⟨e, result, hstored, -⟩
  obtain ⟨hmem, hkey⟩ := Cache.stored?_some hstored
  exact hlacks e hmem hkey

theorem Lacks.insert {cache : Cache Float Stored} (hlacks : Lacks cache key) {other : String}
    (hother : other ≠ key) (now : Float) (payload : Stored) (ttl : Json) :
    Lacks (cache.insert now other payload ttl).2.1 key := by
  unfold Cache.insert
  split
  · exact hlacks
  · intro e he
    rcases Cache.mem_place ((cache.store_sublist now other payload _).subset he) with
      rfl | ⟨hold, -⟩
    · exact hother
    · exact hlacks e hold

theorem Lacks.keep (hlacks : Lacks s.cache key) {other : String} (hother : other ≠ key)
    (result : SearchResult) : Lacks (search.keep s other result).2.1.cache key := by
  have hinsert := hlacks.insert hother s.now (.result result) search.settings.resultTtl
  exact hinsert.keeps (.of_subset (keep_sublist s other result).subset)

/-- Looking up a key that misses leaves nothing under it. -/
theorem Misses.lacks {cache left : Cache Float Stored} {now : Float}
    (hmisses : Misses cache now key left) : Lacks left key := by
  cases hmisses with
  | absent looked =>
      obtain ⟨found, left', hlooks, hcount⟩ := Cache.get?_eq_ok looked
      cases hlooks with
      | absent missing =>
          cases hcount
          intro e he hkey
          apply Cache.stored?_eq_none_iff.1 missing
          rw [← hkey]
          exact List.mem_map_of_mem he
      | expired stored expired =>
          cases hcount
          exact fun e he => (Cache.mem_without.1 he).2
      | live stored unexpired => cases hcount
  | thrown looked payload =>
      intro e he
      rw [Cache.erase_entries] at he
      exact (Cache.mem_without.1 he).2

/-- Only what is not held misses. -/
theorem Misses.not_holds {left : Cache Float Stored} (hmisses : Misses s.cache s.now key left) :
    ¬ s.Holds key := by
  rintro ⟨e, result, hstored, hpayload, hunexpired⟩
  cases hmisses with
  | absent looked =>
      obtain ⟨found, left', hlooks, hcount⟩ := Cache.get?_eq_ok looked
      cases hlooks with
      | absent missing =>
          rw [missing] at hstored
          cases hstored
      | expired stored expired =>
          rw [stored] at hstored
          cases hstored
          rw [expired] at hunexpired
          cases hunexpired
      | live stored unexpired => cases hcount
  | thrown looked payload =>
      obtain ⟨old, hold, -, rfl, -⟩ := Cache.get?_eq_some looked
      rw [hold] at hstored
      cases hstored
      rw [hpayload] at payload
      cases payload

/-- A key that is absent stays so until something is stored under it. -/
theorem Lacks.step (hlacks : Lacks s.cache key) (hstores : ¬ Stores s event key) :
    Lacks (search.step s event).1.cache key := by
  by_cases hfetches : ∃ id sent records, Fetches s event id sent records
  · obtain ⟨id, sent, records, hfetches⟩ := hfetches
    obtain ⟨outcome, hstep, -⟩ : ∃ outcome, _ ∧ _ := hfetches.step_eq
    rw [hstep, State.cache_land]
    apply hlacks.keep
    intro hkey
    exact hstores (.inl ⟨id, sent, records, hfetches, hkey⟩)
  · have hnone : ∀ id sent records, ¬ Fetches s event id sent records :=
      fun id sent records h => hfetches ⟨id, sent, records, h⟩
    by_cases hwrites : event.writes = false
    · exact hlacks.keeps (keeps_step hwrites hnone)
    · cases event with
      | cache command =>
          cases command with
          | set other payload ttl =>
              have hother : other ≠ key := by
                rintro rfl
                exact hstores (.inr ⟨payload, ttl, rfl⟩)
              have hinsert := hlacks.insert hother s.now payload ttl
              simp only [Search.step, Cache.step]
              generalize s.cache.insert s.now other payload ttl = inserted at hinsert ⊢
              rcases inserted with ⟨_ | e, left, log⟩
              · exact hinsert
              · exact hinsert
          | _ => exact absurd rfl hwrites
      | _ => exact absurd rfl hwrites

/-- A result that is held under a key which was absent has been stored in between. -/
theorem run_stores (hlacks : Lacks s.cache key) {events : List Event}
    (hholds : (search.run s events).Holds key) :
    ∃ before event after, events = before ++ event :: after ∧
      Stores (search.run s before) event key := by
  induction events generalizing s with
  | nil => exact absurd hholds hlacks.not_holds
  | cons event rest ih =>
      by_cases hstores : Stores s event key
      · exact ⟨[], event, rest, rfl, hstores⟩
      · obtain ⟨before, event', after, rfl, hlater⟩ := ih (hlacks.step hstores) hholds
        exact ⟨event :: before, event', after, rfl, hlater⟩

/-! ### How a call comes by its flight -/

theorem Boards.flight?_eq {flight flight' : Flight} {call : Call} {phase : Phase}
    (hboards : search.Boards s id flight s') (hcall : s.calls[id]? = some call)
    (hphase : s'.phase? id = some phase) (hflight : phase.flight? = some flight') :
    flight' = flight := by
  have hentered : ∀ {entered : Phase}, s'.calls = (s.enter id entered).calls → entered = phase := by
    intro entered hcalls
    rw [State.phase?_eq_of_calls hcalls, State.phase?_enter_self hcall] at hphase
    exact Option.some.inj hphase
  cases hboards with
  | join found =>
      obtain rfl := hentered rfl
      exact (Option.some.inj hflight).symm
  | lead free valid compiled =>
      obtain rfl := hentered rfl
      exact (Option.some.inj hflight).symm
  | refuse free refused =>
      obtain rfl := hentered rfl
      cases hflight

/-- A call takes the lead of a key without flight if its request is valid and has a query. -/
theorem board_leads {s : State} {flight : Flight} (hfree : s.inflight.lookup flight.key = none)
    (hvalid : (Validation.ofRequest search.checks flight.request).valid = true) {query : Query}
    (hcompiled : Query.ofRequest search.grammar flight.request = .ok query) (id : CallId) :
    ∃ sent : Sent, sent.flight = flight ∧ sent.query = query ∧
      sent.call = search.backendCall flight.request query ∧
      (search.board s id flight).1 =
        { s with inflight := (flight.key, id) :: s.inflight }.enter id (.leading sent) := by
  have hboards := search.board_boards s id flight
  generalize (search.board s id flight).1 = s' at hboards
  cases hboards with
  | join found =>
      rw [hfree] at found
      cases found
  | lead free valid compiled =>
      rw [hcompiled] at compiled
      cases compiled
      exact ⟨_, rfl, rfl, rfl, rfl⟩
  | refuse free refused =>
      cases refused with
      | rejected invalid =>
          rw [hvalid] at invalid
          cases invalid
      | uncompilable valid uncompiled =>
          rw [hcompiled] at uncompiled
          cases uncompiled

/-- So does a call that begins if nothing is under its key. -/
theorem resume_ready_leads {input : Input} {r : Request} {query : Query}
    (hcall : s.calls[id]? = some ⟨.ready input, false⟩) (hasked : search.requestOf input = .ok r)
    (hlacks : Lacks s.cache (search.key r)) (hfree : s.inflight.lookup (search.key r) = none)
    (hvalid : (Validation.ofRequest search.checks r).valid = true)
    (hcompiled : Query.ofRequest search.grammar r = .ok query) :
    ∃ sent : Sent, sent.flight = search.flightOf r s.now ∧ sent.query = query ∧
      sent.call = search.backendCall r query ∧
      (search.step s (.resume id)).1 = { s with
        cache := { s.cache with counters.misses := s.cache.counters.misses + 1 }
        inflight := (search.key r, id) :: s.inflight }.enter id (.leading sent) := by
  have hlooked := hlacks.looked s.now
  have hbegun : (search.step s (.resume id)).1 = (search.board { s with
      cache := { s.cache with counters.misses := s.cache.counters.misses + 1 } } id
      (search.flightOf r s.now)).1 := by
    simp only [Search.step, Search.resume, hcall, hasked, begin, hlooked]
    rfl
  rw [hbegun]
  exact board_leads hfree hvalid hcompiled id

/-- A call that boards when it begins has missed the cache. -/
theorem Move.misses {input : Input} {phase : Phase} (hmove : search.Move s (.resume id) s')
    (hcall : s.calls[id]? = some ⟨.ready input, false⟩) (hphase : s'.phase? id = some phase)
    {flight : Flight} (hflight : phase.flight? = some flight) :
    Misses s.cache s.now flight.key s'.cache := by
  have hunended : ∀ {outcome : Outcome}, s'.calls ≠ (s.enter id (.finished outcome)).calls := by
    intro outcome hcalls
    rw [State.phase?_eq_of_calls hcalls, State.phase?_enter_self hcall] at hphase
    cases hphase
    cases hflight
  cases hmove with
  | stay =>
      rw [State.phase?_of_called hcall] at hphase
      cases hphase
      cases hflight
  | quit called waiting unended => exact absurd rfl hunended
  | refuse called asked => exact absurd rfl hunended
  | overflow called asked looked => exact absurd rfl hunended
  | hit called asked looked payload => exact absurd rfl hunended
  | @miss _ input r left _ called asked missed boards =>
      rw [boards.cache_eq]
      rw [boards.flight?_eq hcall hphase hflight]
      exact missed
  | drop called => exact absurd rfl hunended
  | adopt called ended uncancelled => exact absurd rfl hunended
  | retry called ended boards =>
      rw [hcall] at called
      cases called

/-- A call comes by a flight when it goes on, and brings it along. -/
theorem Turn.brings {phase : Phase} (hturn : search.Turn s event id phase) {flight : Flight}
    (hflight : phase.flight? = some flight) :
    event = .resume id ∧ search.Brings s id flight := by
  cases hturn with
  | follow brings found =>
      obtain rfl := Option.some.inj hflight
      exact ⟨rfl, brings⟩
  | lead brings valid compiled =>
      obtain rfl := Option.some.inj hflight
      exact ⟨rfl, brings⟩
  | arrive | cancel | raise | hit | adopt | fetch => cases hflight

/-- Whoever is about a flight has looked its key up, and has left nothing under it. -/
theorem run_looked {start : State} (hnew : start.calls = []) (events : List Event) :
    ∀ id phase flight, (search.run start events).phase? id = some phase →
      phase.flight? = some flight →
      ∃ earlier later input, events = earlier ++ .resume id :: later ∧
        (search.run start earlier).calls[id]? = some ⟨.ready input, false⟩ ∧
        Lacks (search.run start (earlier ++ [.resume id])).cache flight.key := by
  induction events using List.reverseRecOn with
  | nil =>
      intro id phase flight hphase
      simp [run, State.phase?, hnew] at hphase
  | append_singleton events event ih =>
      intro id phase flight hphase hflight
      have hextend : ∀ phase', (search.run start events).phase? id = some phase' →
          phase'.flight? = some flight →
          ∃ earlier later input, events ++ [event] = earlier ++ .resume id :: later ∧
            (search.run start earlier).calls[id]? = some ⟨.ready input, false⟩ ∧
            Lacks (search.run start (earlier ++ [.resume id])).cache flight.key := by
        intro phase' hphase' hflight'
        obtain ⟨earlier, later, input, rfl, hready, hlacks⟩ := ih id phase' flight hphase' hflight'
        exact ⟨earlier, later ++ [event], input, by simp, hready, hlacks⟩
      rw [run_concat] at hphase
      have hmove := search.step_move (search.run start events) event
      rcases hmove.turn hphase with hold | hturn
      · exact hextend phase hold hflight
      · obtain ⟨rfl, hbrings⟩ := hturn.brings hflight
        cases hbrings with
        | @fresh input r called asked =>
            refine ⟨events, [], input, rfl, called, ?_⟩
            rw [run_concat]
            exact (hmove.misses called hphase hflight).lacks
        | again called ended => exact hextend _ (State.phase?_of_called called) rfl

end IssueSearch.Search
