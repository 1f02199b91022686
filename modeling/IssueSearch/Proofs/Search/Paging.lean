import IssueSearch.Proofs.Search.Atomicity
import IssueSearch.Proofs.Search.Hits
/-!
Walks through all records, page by page. A walk executes a request at the offsets of the pages one
after the other, until a page is not full. Over a store that does not fail the pages of a walk are
the records of the store, each once and in order, no matter which of them come from the backend and
which from the cache.
-/
namespace IssueSearch

/-- A request for what lies from an offset on. -/
def Request.atOffset (r : Request) (offset : Nat) : Request :=
  { r with pagination := { r.pagination with offset := some offset } }

namespace Search

/-- Seconds that pass before a call begins, and seconds that the backend takes if it is asked. -/
structure Pace where
  pause : Float
  took : Float

variable (search : Search) (store : RecordStore)

/-- A call arrives and begins. -/
def beginning (s : State) (r : Request) (pace : Pace) : List Event :=
  [.arrive (.request r), .advance pace.pause, .resume s.calls.length]

/-- A call arrives, begins and is answered by the store if it comes to lead a flight. -/
def execution (s : State) (r : Request) (pace : Pace) : List Event :=
  beginning s r pace ++
    match (search.run s (beginning s r pace)).phase? s.calls.length with
    | some (.leading sent) => [.advance pace.took, .reply s.calls.length (store.answer sent.call)]
    | _ => []

/-- The number of records of a full page. -/
def pageSize (r : Request) : Nat := (search.limit r).toNat

/-- The request for a page. -/
def pageRequest (r : Request) (page : Nat) : Request := r.atOffset (page * search.pageSize r)

/-- Walks from a page on, up to a page that is not full: the records that the pages show, and the
state behind the last. There is nothing if a page shows no records or there are more pages than
fuel. -/
def walk (r : Request) (pace : Nat → Pace) : (fuel : Nat) → State → (page : Nat) →
    Option (List Json × State)
  | 0, _, _ => none
  | fuel + 1, s, page =>
      let s' := search.run s (search.execution store s (search.pageRequest r page) (pace page))
      match s'.outcome? s.calls.length with
      | some (.returned result) =>
          if result.metadata.hasMore then
            (walk r pace fuel s' (page + 1)).map fun rest => (result.records ++ rest.1, rest.2)
          else some (result.records, s')
      | _ => none

/-- A page of records. -/
def pageOf {α : Type} (xs : List α) (size page : Nat) : List α := (xs.drop (page * size)).take size

theorem slice_page {α : Type} (xs : List α) (size page : Nat) :
    slice xs (page * size) ((page * size : Nat) + (size : Int)) = pageOf xs size page := by
  have hstop : ¬ ((page * size : Nat) + (size : Int)) < 0 := by omega
  have htake : ((page * size : Nat) + (size : Int)).toNat = page * size + size := by omega
  rw [slice, if_neg hstop, htake, pageOf, List.drop_take, Nat.add_sub_cancel_left]

/-- A store, a request and settings under which every page can be shown. -/
structure Pageable (search : Search) (store : RecordStore) (r : Request) : Prop where
  healthy : store.failure = none
  valid : (Validation.ofRequest search.checks r).valid = true
  compiled : ∃ query, Query.ofRequest search.grammar r = .ok query
  /-- Results have a time to live, and it is a double. -/
  ttl : ∃ ttl : Int, search.settings.resultTtl = .int ttl ∧ 0 < ttl ∧
    ∃ double, Decimal.nearest ttl = .ok double

/-- What has happened before a walk: requests out of some events were asked for, the backend was the
store, nothing but answers was written to the cache, and no call is in flight for a page. -/
structure Undisturbed (search : Search) (store : RecordStore) (r : Request) (start : State)
    (all events : List Event) : Prop where
  asks : ∀ q, search.Asks events q → search.Asks all q
  backed : search.Backed store.answer start events
  writes : ∀ event ∈ events, event.writes = false
  idle : ∀ page, (search.run start events).inflight.lookup
    (search.key (search.pageRequest r page)) = none

/-- A result shows what the store has at a page, and says whether it is as much as was asked for. -/
structure Shows (search : Search) (store : RecordStore) (r : Request) (page : Nat)
    (result : SearchResult) : Prop where
  records_eq : result.records = slice store.records (page * search.pageSize r)
    ((page * search.pageSize r : Nat) + search.limit r)
  hasMore_eq : result.metadata.hasMore = ((result.records.length : Int) == search.limit r)

variable {search : Search} {store : RecordStore} {r : Request} {start : State}
  {events all : List Event} {page : Nat}

theorem recordsOf_arr (records : List Json) : recordsOf (.arr records) = some records := by
  cases records <;> rfl

/-- What the store answers to the call for a page shows the page. -/
theorem Pageable.shows (hpageable : search.Pageable store r) {sent : Sent} {query : Query}
    (hcall : sent.call = search.backendCall (search.pageRequest r page) query) {value : Json}
    {records : List Json} (hanswer : store.answer sent.call = .ok value)
    (hrecords : recordsOf value = some records) (now : Float) :
    search.Shows store r page (search.resultOf now sent records) := by
  have hslice : store.answer sent.call = .ok (.arr (slice store.records
      (page * search.pageSize r) ((page * search.pageSize r : Nat) + search.limit r))) := by
    rw [hcall, RecordStore.answer, hpageable.healthy]
    rfl
  rw [hslice] at hanswer
  obtain rfl := Except.ok.inj hanswer
  rw [recordsOf_arr, Option.some.injEq] at hrecords
  subst hrecords
  refine ⟨rfl, ?_⟩
  have hlimit : sent.call.limit = search.limit r := by
    rw [hcall]
    rfl
  simp only [resultOf, hlimit]

theorem beginning_writes {s : State} {q : Request} {pace : Pace} :
    ∀ event ∈ beginning s q pace, event.writes = false := by
  simp [beginning, Event.writes]

theorem execution_backed {s : State} {q : Request} {pace : Pace} :
    search.Backed store.answer s (search.execution store s q pace) := by
  rw [execution, backed_append_iff]
  refine ⟨by simp [beginning, Backed], ?_⟩
  split
  · rename_i sent hphase
    refine ⟨by simp, ?_, trivial⟩
    intro id answer sent' heq hphase'
    obtain ⟨rfl, rfl⟩ := Event.reply.inj heq
    have hled : (search.run s (beginning s q pace)).phase? s.calls.length =
        some (.leading sent') := hphase'
    rw [hphase] at hled
    cases hled
    rfl
  · trivial

theorem execution_writes {s : State} {q : Request} {pace : Pace} :
    ∀ event ∈ search.execution store s q pace, event.writes = false := by
  intro event hevent
  rcases List.mem_append.1 hevent with hbegins | hanswered
  · exact beginning_writes event hbegins
  · split at hanswered
    · rcases List.mem_pair.1 hanswered with rfl | rfl <;> rfl
    · cases hanswered

/-- An execution asks for its own request only. -/
theorem execution_asks {s : State} {q asked : Request} {pace : Pace}
    (hasks : search.Asks (search.execution store s q pace) asked) : asked = q := by
  obtain ⟨input, hmem, hinput⟩ := hasks
  have harrives : input = .request q := by
    rcases List.mem_append.1 hmem with hbegins | hanswered
    · simpa [beginning] using hbegins
    · split at hanswered <;> simp at hanswered
  subst harrives
  exact (Except.ok.inj hinput).symm

theorem keep_inflight (s : State) (key : String) (result : SearchResult) :
    (search.keep s key result).2.1.inflight = s.inflight := by
  rcases hkeep : search.keep s key result with ⟨kept, s', log⟩
  rw [search.keep_frame s hkeep]

/-- A leader of the flight for a page shows the page when the store answers, and its flight is
over. -/
theorem Pageable.reply_shows (hpageable : search.Pageable store r) {s : State} {id : CallId}
    {sent : Sent} {query : Query} {flights : List (String × CallId)}
    (hcalled : s.calls[id]? = some ⟨.leading sent, false⟩)
    (hcall : sent.call = search.backendCall (search.pageRequest r page) query)
    (hinflight : s.inflight = (sent.flight.key, id) :: flights)
    (hfree : flights.lookup sent.flight.key = none)
    (hall : ∀ {ttl : Int}, search.settings.resultTtl = .int ttl → 0 < ttl →
      ∀ e ∈ s.cache.entries, e.ttl = ttl) :
    (∃ result, (search.step s (.reply id (store.answer sent.call))).1.outcome? id =
        some (.returned result) ∧ search.Shows store r page result) ∧
      (search.step s (.reply id (store.answer sent.call))).1.inflight = flights := by
  obtain ⟨ttl, httl, hpos, double, hdouble⟩ := hpageable.ttl
  obtain ⟨value, records, hanswer, hrecords⟩ : ∃ value records,
      store.answer sent.call = .ok value ∧ recordsOf value = some records :=
    ⟨_, _, by rw [RecordStore.answer, hpageable.healthy], recordsOf_arr _⟩
  have hfetches : Fetches s (.reply id (store.answer sent.call)) id sent records :=
    ⟨hcalled, value, by rw [hanswer], hrecords⟩
  have houtcome := hfetches.outcome?_step httl hpos hdouble (hall httl hpos)
  obtain ⟨outcome, hstep, -⟩ := hfetches.step_eq
  refine ⟨⟨_, houtcome, hpageable.shows hcall hanswer hrecords _⟩, ?_⟩
  rw [hstep, State.inflight_land, keep_inflight, hinflight, filter_own hfree]

section Page

variable (hpageable : search.Pageable store r) (hfresh : start.Fresh)
  (hdistinct : search.NoCollision all)
  (hundisturbed : search.Undisturbed store r start all events)
  (hpage : search.Asks all (search.pageRequest r page))

include hfresh hundisturbed

theorem Undisturbed.ttl_eq {ttl : Int} (httl : search.settings.resultTtl = .int ttl)
    (hpos : 0 < ttl) : ∀ e ∈ (search.run start events).cache.entries, e.ttl = ttl :=
  fun e he => (run_stocked httl hpos hfresh.entries hundisturbed.writes e he).ttl_eq

include hpageable hdistinct hpage

/-- What is held under the key of a page shows the page. -/
theorem Undisturbed.held_shows {e : Cache.Entry Float Stored}
    (he : e ∈ (search.run start events).cache.entries)
    (hkey : e.key = search.key (search.pageRequest r page)) :
    ∃ stored, e.payload = .result stored ∧ search.Shows store r page stored := by
  obtain ⟨ttl, httl, hpos, -⟩ := hpageable.ttl
  have hstocked := run_stocked httl hpos hfresh.entries hundisturbed.writes e he
  have hbacked := hundisturbed.backed
  have hasked := hundisturbed.asks
  cases hstocked with
  | @fetched earlier later event id sent records last hits =>
      obtain ⟨⟨hownkey, hasks⟩, hcompiled, hcall⟩ : Phase.Honest search earlier (.leading sent) :=
        run_honest hfresh.calls earlier id _ (State.phase?_of_called last.fetches.called)
      have halike : sent.flight.request.Alike (search.pageRequest r page) := by
        apply key_inj_of_noCollision hdistinct _ hpage (hownkey.symm.trans hkey)
        exact hasked _ (hasks.mono (List.subset_append_left _ _))
      obtain ⟨value, hanswer, hrecords⟩ := hbacked.answered last.fetches
      rw [backendCall_congr _ halike] at hcall
      exact ⟨_, rfl, hpageable.shows hcall hanswer hrecords _⟩

/-- A call for a page shows the page as soon as it begins, or leads a flight for it. -/
theorem Undisturbed.begins (pace : Pace) {s s' : State} (hs : search.run start events = s)
    (hs' : search.run s (beginning s (search.pageRequest r page) pace) = s') :
    (∃ result, s'.phase? s.calls.length = some (.finished (.returned result)) ∧
      search.Shows store r page result ∧ s'.inflight = s.inflight) ∨
    ∃ sent query, s'.calls[s.calls.length]? = some ⟨.leading sent, false⟩ ∧
      sent.call = search.backendCall (search.pageRequest r page) query ∧
      s'.inflight = (sent.flight.key, s.calls.length) :: s.inflight ∧
      s.inflight.lookup sent.flight.key = none := by
  obtain ⟨ttl, httl, hpos, double, hdouble⟩ := hpageable.ttl
  obtain ⟨query, hcompiled⟩ := hpageable.compiled
  have hidle := hundisturbed.idle page
  have hall := hundisturbed.ttl_eq hfresh httl hpos
  have hheld : ∀ {e : Cache.Entry Float Stored}, e ∈ (search.run start events).cache.entries →
      e.key = search.key (search.pageRequest r page) →
      ∃ stored, e.payload = .result stored ∧ search.Shows store r page stored :=
    hundisturbed.held_shows hpageable hfresh hdistinct hpage
  rw [hs] at hidle hall hheld
  let arrived : State := { s with
    calls := s.calls ++ [{ phase := .ready (.request (search.pageRequest r page)) }]
    now := s.now + pace.pause }
  have hcall : arrived.calls[s.calls.length]? =
      some ⟨.ready (.request (search.pageRequest r page)), false⟩ := getElem?_last rfl
  have hbegun : (search.begin arrived s.calls.length (search.pageRequest r page)).1 = s' := by
    have hstep : (search.resume arrived s.calls.length).1 = s' := hs'
    rw [← hstep]
    simp only [resume, hcall, requestOf]
  obtain ⟨⟨found, left⟩, hlooked⟩ := get?_eq_ok hdouble hall arrived.now
    (search.key (search.pageRequest r page))
  cases found with
  | some entry =>
      obtain ⟨old, hold, -, rfl, -⟩ := Cache.get?_eq_some hlooked
      obtain ⟨hmem, hkey⟩ := Cache.stored?_some hold
      obtain ⟨stored, hpayload, hshows⟩ := hheld hmem hkey
      simp only [begin, arrived, hlooked, hpayload] at hbegun
      refine .inl ⟨stored.fromCache (search.pageRequest r page), ?_, ?_, ?_⟩
      · rw [← hbegun, State.phase?_eq_of_calls (State.calls_account _ _ _)]
        exact State.phase?_enter_self hcall _
      · exact ⟨hshows.records_eq, hshows.hasMore_eq⟩
      · rw [← hbegun]
        rfl
  | none =>
      obtain ⟨sent, hflight, -, hsent, hleads⟩ := @board_leads search
        { arrived with cache := left } (search.flightOf (search.pageRequest r page) arrived.now)
        hidle hpageable.valid query hcompiled s.calls.length
      have hboarded : (search.board { arrived with cache := left } s.calls.length
          (search.flightOf (search.pageRequest r page) arrived.now)).1 = s' := by
        rw [← hbegun]
        simp only [begin, arrived, hlooked]
        rfl
      have hlast : arrived.calls =
          s.calls ++ [⟨.ready (.request (search.pageRequest r page)), false⟩] := rfl
      rw [hleads] at hboarded
      refine .inr ⟨sent, query, ?_, hsent, ?_, ?_⟩
      · rw [← hboarded]
        exact getElem?_last (enter_last hlast _)
      · rw [← hboarded, hflight]
        rfl
      · rw [hflight]
        exact hidle

/-- A call for a page shows the page. -/
theorem Undisturbed.shows (pace : Pace) {s s' : State} (hs : search.run start events = s)
    (hs' : search.run s (search.execution store s (search.pageRequest r page) pace) = s') :
    (∃ result, s'.outcome? s.calls.length = some (.returned result) ∧
      search.Shows store r page result) ∧ s'.inflight = s.inflight := by
  generalize hbegun : search.run s (beginning s (search.pageRequest r page) pace) = begun
  rcases hundisturbed.begins hpageable hfresh hdistinct hpage pace hs hbegun with
    ⟨result, hphase, hshows, hinflight⟩ | ⟨sent, query, hcalled, hcall, hinflight, hfree⟩
  · have hbegins : begun = s' := by
      rw [← hs', execution, hbegun, hphase, List.append_nil, hbegun]
    rw [← hbegins]
    exact ⟨⟨result, State.outcome?_eq_some_iff.2 hphase, hshows⟩, hinflight⟩
  · have hanswered : (search.step { begun with now := begun.now + pace.took }
        (.reply s.calls.length (store.answer sent.call))).1 = s' := by
      rw [← hs', execution, hbegun, State.phase?_of_called hcalled, run_append, hbegun]
      rfl
    have hall : ∀ {ttl : Int}, search.settings.resultTtl = .int ttl → 0 < ttl →
        ∀ e ∈ begun.cache.entries, e.ttl = ttl := by
      intro ttl httl hpos e he
      rw [← hbegun, ← hs, ← run_append] at he
      refine (run_stocked httl hpos hfresh.entries ?_ e he).ttl_eq
      intro event hevent
      rcases List.mem_append.1 hevent with hold | hnew
      · exact hundisturbed.writes event hold
      · exact beginning_writes event hnew
    rw [← hanswered]
    exact hpageable.reply_shows (s := { begun with now := begun.now + pace.took }) hcalled hcall
      hinflight hfree hall

/-- A walk can go on behind a page. -/
theorem Undisturbed.execution (pace : Pace) : search.Undisturbed store r start all
    (events ++ search.execution store (search.run start events) (search.pageRequest r page)
      pace) where
  asks q hasks := by
    obtain ⟨input, hmem, hinput⟩ := hasks
    rcases List.mem_append.1 hmem with hold | hnew
    · exact hundisturbed.asks q ⟨input, hold, hinput⟩
    · rw [execution_asks ⟨input, hnew, hinput⟩]
      exact hpage
  backed := backed_append_iff.2 ⟨hundisturbed.backed, execution_backed⟩
  writes event hevent := by
    rcases List.mem_append.1 hevent with hold | hnew
    · exact hundisturbed.writes event hold
    · exact execution_writes event hnew
  idle other := by
    obtain ⟨-, hinflight⟩ := hundisturbed.shows hpageable hfresh hdistinct hpage pace rfl rfl
    rw [run_append, hinflight]
    exact hundisturbed.idle other

end Page

section Walk

theorem pageSize_eq (hlimit : 1 ≤ search.limit r) : (search.pageSize r : Int) = search.limit r := by
  rw [pageSize]
  omega

/-- With pages of one record at least, a result shows a page of the records and whether it is
full. -/
theorem Shows.pageOf (hlimit : 1 ≤ search.limit r) {result : SearchResult}
    (hshows : search.Shows store r page result) :
    result.records = Search.pageOf store.records (search.pageSize r) page ∧
      result.metadata.hasMore = (result.records.length == search.pageSize r) := by
  obtain ⟨hrecords, hmore⟩ := hshows
  rw [← pageSize_eq hlimit] at hrecords hmore
  rw [slice_page] at hrecords
  refine ⟨hrecords, ?_⟩
  rw [hmore, Bool.eq_iff_iff, beq_iff_eq, beq_iff_eq, Int.natCast_inj]

variable (hpageable : search.Pageable store r) (hlimit : 1 ≤ search.limit r)
  (hfresh : start.Fresh) (hdistinct : search.NoCollision all)
  (hpages : ∀ page, page ≤ store.records.length / search.pageSize r →
    search.Asks all (search.pageRequest r page))

include hpageable hlimit hfresh hdistinct hpages

end Walk

/-- The first call of all leads a flight as soon as it begins. -/
theorem State.Fresh.begins (hfresh : start.Fresh) {q : Request} {query : Query}
    (hvalid : (Validation.ofRequest search.checks q).valid = true)
    (hcompiled : Query.ofRequest search.grammar q = .ok query) (pace : Pace) :
    ∃ sent : Sent, sent.call = search.backendCall q query ∧
      (search.run start (beginning start q pace)).calls[0]? = some ⟨.leading sent, false⟩ ∧
      (search.run start (beginning start q pace)).cache =
        { start.cache with counters.misses := start.cache.counters.misses + 1 } := by
  let arrived : State := { start with
    calls := [{ phase := .ready (.request q) }], now := start.now + pace.pause }
  have harrived : search.run start (beginning start q pace) =
      (search.step arrived (.resume 0)).1 := by
    have hrun : search.run start (beginning start q pace) =
        (search.step { start with
          calls := start.calls ++ [{ phase := .ready (.request q) }]
          now := start.now + pace.pause } (.resume start.calls.length)).1 := rfl
    rw [hrun, hfresh.calls]
    rfl
  have hlacks : Lacks arrived.cache (search.key q) := hfresh.lacks _
  have hfree : arrived.inflight.lookup (search.key q) = none := by
    rw [show arrived.inflight = [] from hfresh.inflight]
    rfl
  obtain ⟨sent, -, -, hsent, hleads⟩ :=
    @resume_ready_leads search arrived 0 (.request q) q query rfl rfl hlacks hfree hvalid hcompiled
  rw [harrived, hleads]
  exact ⟨sent, hsent, rfl, rfl⟩

/-- It ends with an error if the result that it makes of the store's answer cannot be kept. -/
theorem State.Fresh.loses (hfresh : start.Fresh) (hhealthy : store.failure = none) {q : Request}
    {query : Query} (hvalid : (Validation.ofRequest search.checks q).valid = true)
    (hcompiled : Query.ofRequest search.grammar q = .ok query) {cause : Cache.Error}
    (hlost : ∀ (s : State) key result, s.cache =
      { start.cache with counters.misses := start.cache.counters.misses + 1 } →
      (search.keep s key result).1 = .error cause) (pace : Pace) :
    (search.run start (search.execution store start q pace)).outcome? 0 =
      some (.raised (.cache cause)) := by
  obtain ⟨sent, -, hcall, hcache⟩ := hfresh.begins hvalid hcompiled pace
  have hnumber : start.calls.length = 0 := by
    rw [hfresh.calls]
    rfl
  obtain ⟨records, hanswer⟩ : ∃ records, store.answer sent.call = .ok (.arr records) :=
    ⟨_, by rw [RecordStore.answer, hhealthy]⟩
  have hexecution : search.execution store start q pace = beginning start q pace ++
      [.advance pace.took, .reply 0 (.ok (.arr records))] := by
    rw [execution, hnumber, State.phase?_of_called hcall, ← hanswer]
  rw [hexecution, run_append]
  generalize search.run start (beginning start q pace) = begun at hcall hcache
  have hconcludes := @reply_concludes search 0 { begun with now := begun.now + pace.took } sent
    hcall (.ok (.arr records))
  have hkept := hlost { begun with now := begun.now + pace.took } sent.flight.key
    (search.resultOf (begun.now + pace.took) sent records) hcache
  have hrun : search.run begun [.advance pace.took, .reply 0 (.ok (.arr records))] =
      (search.step { begun with now := begun.now + pace.took }
        (.reply 0 (.ok (.arr records)))).1 := rfl
  rw [hrun, hconcludes]
  simp only [conclude, recordsOf_arr, hkept]

end Search
end IssueSearch
