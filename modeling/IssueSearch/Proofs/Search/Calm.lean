import IssueSearch.Proofs.Cache.Living
import IssueSearch.Proofs.Search.Ending
import IssueSearch.Proofs.Search.SingleFlight
/-!
Calls for different keys. Where nothing runs out and nothing is evicted, what a call comes to is
settled by its input, by what the cache held under its key at the beginning and by what the backend
answers to it, and so is what it leaves under its key. How far a call has come is told of it alone;
a step of another call leaves it where it is.
-/
namespace IssueSearch

/-- A result without what depends on how long the backend took. -/
def SearchResult.untimed (r : SearchResult) : SearchResult :=
  { r with metadata := { r.metadata with
    queryTime := 0.0, performanceClass := .excellent, suggestions := [] } }

def Outcome.untimed : Outcome → Outcome
  | .returned result => .returned result.untimed
  | .raised error => .raised error
  | .cancelled => .cancelled

namespace Search

def Stored.untimed : Stored → Stored
  | .result r => .result r.untimed
  | .foreign value => .foreign value

/-- What a cache holds under a key, but for what depends on time. -/
def held (cache : Cache Float Stored) (key : String) : Option Stored :=
  (cache.payload? key).map Stored.untimed

/-- The input of a call that an event brings. -/
def Event.input? : Event → Option Input
  | .arrive input => some input
  | _ => none

/-- The inputs of the calls that arrive, in order of their numbers. -/
def arrivals (events : List Event) : List Input := events.filterMap Event.input?

/-- What happens if nobody is asked to end and nobody else uses the cache. -/
def Event.isPlain : Event → Bool
  | .cancel _ | .cache _ => false
  | .arrive _ | .resume _ | .reply _ _ | .advance _ => true

/-- What a call comes to. -/
structure Verdict where
  outcome : Outcome
  /-- What is held under its key when it has ended. -/
  left : Option Stored

variable (search : Search) (backend : BackendCall → Except Failure Json) (policy : Cache.Policy)

/-- The key under which a call looks, unless its input is refused. -/
def keyOf (input : Input) : Option String :=
  match search.requestOf input with
  | .ok r => some (search.key r)
  | .error _ => none

/-- What a call knows that begins at some time, and calls the backend. -/
def sentOf (r : Request) (query : Query) (time : Float) : Sent where
  flight := search.flightOf r time
  query
  call := search.backendCall r query
  warnings := (Validation.ofRequest search.checks r).warnings ++ query.warnings
  sentAt := time

/-- What a call comes to that calls the backend. -/
def answered (r : Request) (query : Query) : Verdict :=
  match backend (search.backendCall r query) with
  | .error failure => ⟨.raised (.backend failure), none⟩
  | .ok value =>
      match recordsOf value with
      | none => ⟨.raised (.notRecords value), none⟩
      | some records =>
          match policy.resolveTtl (search.key r) search.settings.resultTtl with
          | .error cause => ⟨.raised (.cache (.ttl cause)), none⟩
          | .ok _ =>
              let result := (search.resultOf 0.0 (search.sentOf r query 0.0) records).untimed
              ⟨.returned result, some (.result result)⟩

/-- What a call comes to that finds nothing of ours under its key. -/
def fetched (r : Request) : Verdict :=
  let checked := Validation.ofRequest search.checks r
  if checked.valid then
    match Query.ofRequest search.grammar r with
    | .ok query => search.answered backend policy r query
    | .error cause => ⟨.raised (.uncompilable cause), none⟩
  else ⟨.raised (.rejected checked.errors checked.warnings), none⟩

/-- What a call comes to by what is held under its key. -/
def verdict (r : Request) : Option Stored → Verdict
  | some (.result stored) => ⟨.returned (stored.fromCache r), some (.result stored)⟩
  | _ => search.fetched backend policy r

/-- A run in which nothing disturbs the calls: the backend's answers depend on what it is asked for,
nothing is given up to make room, and nothing runs out. -/
structure Calm (start : State) (events : List Event) : Prop where
  plain : ∀ event ∈ events, event.isPlain = true
  backed : search.Backed backend start events
  roomy : ∀ earlier, earlier <+: events →
    (search.run start earlier).cache.counters.evictions = start.cache.counters.evictions
  /-- What is stored at the beginning has not expired by any later reading of the clock. -/
  lasting : ∀ e ∈ start.cache.entries, ∀ later, later <+: events →
    e.isExpired (search.run start later).now = .ok false
  /-- A result that is stored on the way has not expired by any later reading either. -/
  storable : ∀ key ttl, start.cache.policy.resolveTtl key search.settings.resultTtl = .ok ttl →
    ∀ earlier later, earlier <+: later → later <+: events →
      ∃ deadline, Timeline.after (search.run start earlier).now ttl = .ok deadline ∧
        Timeline.reached (search.run start later).now deadline = false

/-- How far a call for some input has come, from a cache to a cache. -/
inductive Underway (first cache : Cache Float Stored) (input : Input) : Phase → Prop
  /-- Nobody else has touched its key. -/
  | ready (untouched : ∀ r, search.requestOf input = .ok r →
      held cache (search.key r) = held first (search.key r)) :
      Underway first cache input (.ready input)
  | refused {error : SearchError} (asked : search.requestOf input = .error error) :
      Underway first cache input (.finished (.raised error))
  | leading {r : Request} {query : Query} {time : Float} (asked : search.requestOf input = .ok r)
      (missed : ∀ stored, held first (search.key r) ≠ some (.result stored))
      (valid : (Validation.ofRequest search.checks r).valid = true)
      (compiled : Query.ofRequest search.grammar r = .ok query)
      (absent : held cache (search.key r) = none) :
      Underway first cache input (.leading (search.sentOf r query time))
  | settled {r : Request} {outcome : Outcome} (asked : search.requestOf input = .ok r)
      (outcome_eq : outcome.untimed =
        (search.verdict backend first.policy r (held first (search.key r))).outcome)
      (left_eq : held cache (search.key r) =
        (search.verdict backend first.policy r (held first (search.key r))).left) :
      Underway first cache input (.finished outcome)

/-- How far the calls for some inputs have come since a cache. -/
structure Progress (first : Cache Float Stored) (inputs : List Input) (s : State) : Prop where
  length_eq : s.calls.length = inputs.length
  unasked : ∀ id, ¬ s.Asked id
  underway : ∀ id input, inputs[id]? = some input →
    ∃ phase, s.phase? id = some phase ∧ search.Underway backend first s.cache input phase
  /-- A key without call is held as at the beginning. -/
  others : ∀ key, key ∉ inputs.filterMap search.keyOf → held s.cache key = held first key
  policy_eq : s.cache.policy = first.policy

variable {search backend policy} {s s' : State} {first cache left : Cache Float Stored}
  {inputs : List Input} {input : Input} {r : Request} {id : CallId} {key : String}

/-! ### Verdicts -/

theorem keyOf_ok (hasked : search.requestOf input = .ok r) :
    search.keyOf input = some (search.key r) := by
  rw [keyOf, hasked]

theorem verdict_of_missed {before : Option Stored}
    (hmissed : ∀ stored, before ≠ some (.result stored)) :
    search.verdict backend policy r before = search.fetched backend policy r := by
  unfold verdict
  split
  · exact absurd rfl (hmissed _)
  · rfl

theorem fetched_of_refused {error : SearchError} (hrefused : search.Refuses r error) :
    search.fetched backend policy r = ⟨.raised error, none⟩ := by
  cases hrefused with
  | rejected invalid => simp [fetched, invalid]
  | uncompilable valid uncompiled => simp only [fetched, valid, uncompiled, if_true]

theorem fetched_of_compiled {query : Query}
    (hvalid : (Validation.ofRequest search.checks r).valid = true)
    (hcompiled : Query.ofRequest search.grammar r = .ok query) :
    search.fetched backend policy r = search.answered backend policy r query := by
  simp only [fetched, hvalid, hcompiled, if_true]

/-! ### What happens to the cache -/

/-- A lookup leaves what is held. -/
theorem held_get? {found : Option (Cache.Entry Float Stored)} (hliving : cache.Living s.now)
    (hlooked : cache.get? s.now key = .ok (found, left)) :
    (∀ other, held left other = held cache other) ∧
      held cache key = found.map (·.payload.untimed) := by
  rw [hliving.get?_eq, Except.ok.injEq] at hlooked
  have hleft : left = (Cache.countLookup (cache.stored? key, cache)).2 := by rw [hlooked]
  refine ⟨fun other => ?_, ?_⟩
  · rw [held, held, hleft, Cache.payload?_countLookup]
  · rw [held, Cache.payload?]
    cases hstored : cache.stored? key with
    | none =>
        rw [hstored] at hlooked
        cases hlooked
        rfl
    | some e =>
        rw [hstored] at hlooked
        cases hlooked
        rfl

theorem Misses.trims (hmisses : Misses cache s.now key left) : Cache.Trims cache left := by
  cases hmisses with
  | absent looked => exact Cache.get?_trims looked
  | thrown looked payload => exact (Cache.get?_trims looked).trans (Cache.erase_trims _ _)

/-- What misses is no result of ours; it is gone, and nothing else is. -/
theorem Misses.held (hmisses : Misses cache s.now key left) (hliving : cache.Living s.now) :
    (∀ other, other ≠ key → held left other = held cache other) ∧
      held left key = none ∧ ∀ stored, held cache key ≠ some (.result stored) := by
  cases hmisses with
  | absent looked =>
      obtain ⟨hothers, hfound⟩ := held_get? hliving looked
      rw [hfound]
      exact ⟨fun other _ => hothers other, by rw [hothers, hfound]; rfl, by simp⟩
  | @thrown left entry value looked payload =>
      obtain ⟨hothers, hfound⟩ := held_get? hliving looked
      refine ⟨fun other hother => ?_, ?_, ?_⟩
      · rw [← hothers, Search.held, Search.held, Cache.payload?_erase, if_neg hother]
      · rw [Search.held, Cache.payload?_erase, if_pos rfl]
        rfl
      · simp [hfound, payload, Stored.untimed]

/-- A result without a time to live is not kept, and nothing happens to the cache. -/
theorem keep_refused {result : SearchResult} {cause : Cache.InvalidTtl}
    (hrefused : s.cache.policy.resolveTtl key search.settings.resultTtl = .error cause) :
    search.keep s key result = (.error (.ttl cause), s, []) := by
  simp only [keep, Cache.insert, hrefused]

/-- A result that does not run out at once is kept, and only the entry of its key changes. -/
theorem keep_living {result : SearchResult} {ttl : Int} (hliving : s.cache.Living s.now)
    (httl : s.cache.policy.resolveTtl key search.settings.resultTtl = .ok ttl)
    (hlasts : ∃ deadline, Timeline.after s.now ttl = .ok deadline ∧
      Timeline.reached s.now deadline = false) :
    ∃ left log, search.keep s key result = (.ok (), { s with cache := left }, log) ∧
      left.policy = s.cache.policy ∧
      (left.counters.evictions = s.cache.counters.evictions → ∀ other, held left other =
        if other = key then some (.result result.untimed) else held s.cache other) := by
  have hnew : (⟨key, .result result, s.now, ttl, 0⟩ : Cache.Entry Float Stored).isExpired s.now =
      .ok false := by
    obtain ⟨deadline, hafter, hreached⟩ := hlasts
    simp only [Cache.Entry.isExpired, Cache.Entry.expiresAt, hafter, Except.map, hreached]
  obtain ⟨left, log, hstore, hleft, hentries⟩ := hliving.store hnew
  have htrims := s.cache.store_trims s.now key (.result result) ttl
  rw [hstore] at htrims
  have hpolicy : left.policy = s.cache.policy := htrims.policy_eq.trans (s.cache.place_policy _)
  have hheld : left.counters.evictions = s.cache.counters.evictions → ∀ other, held left other =
      if other = key then some (.result result.untimed) else held s.cache other := by
    intro hroom other
    rw [show left.counters.evictions = _ from htrims.evictions_eq] at hroom
    rw [held, Cache.payload?_congr hentries, Cache.payload?_place hroom]
    split
    · rfl
    · rfl
  simp only [keep, Cache.insert, httl, hstore, Except.mapError]
  split
  · rw [hleft.sweep]
    exact ⟨_, _, rfl, hpolicy, hheld⟩
  · exact ⟨_, _, rfl, hpolicy, hheld⟩

/-! ### One call, and the others -/

theorem Underway.congr {phase : Phase}
    (hunderway : search.Underway backend first cache input phase)
    (hheld : ∀ key, search.keyOf input = some key → held left key = held cache key) :
    search.Underway backend first left input phase := by
  cases hunderway with
  | ready untouched =>
      exact .ready fun r asked => (hheld _ (keyOf_ok asked)).trans (untouched r asked)
  | refused asked => exact .refused asked
  | leading asked missed valid compiled absent =>
      exact .leading asked missed valid compiled ((hheld _ (keyOf_ok asked)).trans absent)
  | settled asked outcome_eq left_eq =>
      exact .settled asked outcome_eq ((hheld _ (keyOf_ok asked)).trans left_eq)

/-- A key belongs to one call only. -/
theorem key_unshared (hkeys : (inputs.filterMap search.keyOf).Nodup) {other : CallId}
    {input' : Input} (hinput : inputs[id]? = some input) (hother : inputs[other]? = some input')
    (hne : other ≠ id) (hkey : search.keyOf input' = some key) :
    search.keyOf input ≠ some key := by
  rw [List.Nodup, List.pairwise_filterMap, List.pairwise_iff_getElem] at hkeys
  obtain ⟨hlt, rfl⟩ := List.getElem?_eq_some_iff.1 hinput
  obtain ⟨hlt', rfl⟩ := List.getElem?_eq_some_iff.1 hother
  intro hown
  rcases Nat.lt_or_gt_of_ne hne with hbefore | hbehind
  · exact hkeys _ _ hlt' hlt hbefore key hkey key hown rfl
  · exact hkeys _ _ hlt hlt' hbehind key hown key hkey rfl

theorem Progress.called (hprogress : search.Progress backend first inputs s) {phase : Phase}
    (hphase : s.phase? id = some phase) :
    ∃ input, inputs[id]? = some input ∧ search.Underway backend first s.cache input phase := by
  have hlt : id < inputs.length := by
    obtain ⟨call, hcall, -⟩ := Option.map_eq_some_iff.1 hphase
    rw [← hprogress.length_eq]
    exact (List.getElem?_eq_some_iff.1 hcall).1
  obtain ⟨phase', hphase', hunderway⟩ :=
    hprogress.underway id inputs[id] (List.getElem?_eq_getElem hlt)
  rw [hphase, Option.some.injEq] at hphase'
  exact ⟨inputs[id], List.getElem?_eq_getElem hlt, hphase' ▸ hunderway⟩

section Steps

variable (hprogress : search.Progress backend first inputs s)
  (hkeys : (inputs.filterMap search.keyOf).Nodup)

include hprogress hkeys

/-- A call goes on, and changes nothing but what is held under its key. -/
theorem Progress.enter (hinput : inputs[id]? = some input) {phase : Phase}
    (hcalls : s'.calls = (s.enter id phase).calls) (hpolicy : s'.cache.policy = s.cache.policy)
    (hheld : ∀ key, search.keyOf input ≠ some key → held s'.cache key = held s.cache key)
    (hunderway : search.Underway backend first s'.cache input phase) :
    search.Progress backend first inputs s' where
  length_eq := by
    rw [hcalls, ← hprogress.length_eq]
    simp [State.enter]
  unasked other := by
    rw [State.asked_congr hcalls, State.asked_enter_iff]
    exact hprogress.unasked other
  underway other input' hother := by
    obtain ⟨phase', hphase, hunderway'⟩ := hprogress.underway other input' hother
    by_cases hne : other = id
    · subst hne
      rw [hinput] at hother
      cases hother
      obtain ⟨call, hcall, -⟩ := Option.map_eq_some_iff.1 hphase
      refine ⟨phase, ?_, hunderway⟩
      rw [State.phase?_eq_of_calls hcalls, State.phase?_enter_self hcall]
    · refine ⟨phase', ?_, hunderway'.congr fun key hkey => hheld key ?_⟩
      · rw [State.phase?_eq_of_calls hcalls, State.phase?_enter_of_ne hne, hphase]
      · exact key_unshared hkeys hinput hother hne hkey
  others key hkey := by
    have hnot : search.keyOf input ≠ some key := fun hown =>
      hkey (List.mem_filterMap.2 ⟨input, List.mem_of_getElem? hinput, hown⟩)
    rw [hheld key hnot, hprogress.others key hkey]
  policy_eq := hpolicy.trans hprogress.policy_eq

/-- A call boards a flight when it begins: nobody else is about its key, so it does not join. -/
theorem Progress.board (hflights : s.SingleFlight) (hliving : s.cache.Living s.now)
    (hcall : s.calls[id]? = some ⟨.ready input, false⟩) (hasked : search.requestOf input = .ok r)
    (hmissed : Misses s.cache s.now (search.key r) left)
    (hboards : search.Boards { s with cache := left } id (search.flightOf r s.now) s') :
    search.Progress backend first inputs s' := by
  obtain ⟨input', hinput, hunderway⟩ := hprogress.called (State.phase?_of_called hcall)
  obtain ⟨hothers, hgone, hnone⟩ := hmissed.held hliving
  have hpolicy : left.policy = s.cache.policy := hmissed.trims.policy_eq
  cases hunderway with
  | ready untouched =>
      rw [untouched r hasked] at hnone
      have hheld : ∀ key, search.keyOf input ≠ some key → held left key = held s.cache key := by
        intro key hother
        refine hothers key ?_
        rintro rfl
        exact hother (keyOf_ok hasked)
      cases hboards with
      | @join leader found =>
          obtain ⟨sent, hleads, hsame⟩ := (hflights.lookup_iff _ _).1 found
          obtain ⟨input', hinput', hunderway'⟩ := hprogress.called hleads
          have hne : leader ≠ id := by
            rintro rfl
            rw [State.phase?_of_called hcall] at hleads
            cases hleads
          cases hunderway' with
          | leading asked' missed' valid' compiled' absent' =>
              exact absurd ((keyOf_ok hasked).trans (congrArg some hsame.symm))
                (key_unshared hkeys hinput hinput' hne (keyOf_ok asked'))
      | lead free valid compiled =>
          exact hprogress.enter hkeys hinput rfl hpolicy hheld
            (.leading hasked hnone valid compiled hgone)
      | refuse free refused =>
          have hverdict : search.verdict backend first.policy r (held first (search.key r)) =
              ⟨.raised _, none⟩ := (verdict_of_missed hnone).trans (fetched_of_refused refused)
          refine hprogress.enter hkeys hinput rfl hpolicy hheld (.settled hasked ?_ ?_)
          · rw [hverdict]
            rfl
          · rw [hverdict]
            exact hgone

theorem Progress.resume (hflights : s.SingleFlight) (hliving : s.cache.Living s.now)
    (id : CallId) : search.Progress backend first inputs (search.resume s id).1 := by
  have hmove := search.resume_move s id
  generalize (search.resume s id).1 = s' at hmove
  cases hmove with
  | stay => exact hprogress
  | quit called waiting unended => exact absurd ⟨_, called⟩ (hprogress.unasked id)
  | drop called => exact absurd ⟨_, called⟩ (hprogress.unasked id)
  | refuse called asked =>
      obtain ⟨input, hinput, hunderway⟩ := hprogress.called (State.phase?_of_called called)
      cases hunderway
      exact hprogress.enter hkeys hinput rfl rfl (fun _ _ => rfl) (.refused asked)
  | overflow called asked looked =>
      rw [hliving.get?_eq] at looked
      cases looked
  | @hit _ input r entry stored left called asked looked payload =>
      obtain ⟨input', hinput, hunderway⟩ := hprogress.called (State.phase?_of_called called)
      obtain ⟨hleft, hfound⟩ := held_get? hliving looked
      have hpolicy : left.policy = s.cache.policy := (Cache.get?_trims looked).policy_eq
      cases hunderway with
      | ready untouched =>
          have hbefore : held first (search.key r) = some (.result stored.untimed) := by
            rw [← untouched r asked, hfound, Option.map_some, payload]
            rfl
          refine hprogress.enter hkeys hinput rfl hpolicy (fun key _ => hleft key)
            (.settled asked ?_ ?_)
          · rw [hbefore]
            rfl
          · rw [hbefore]
            exact (hleft _).trans ((untouched r asked).trans hbefore)
  | miss called asked missed boards =>
      exact hprogress.board hkeys hflights hliving called asked missed boards
  | adopt called ended uncancelled =>
      obtain ⟨input, hinput, hunderway⟩ := hprogress.called (State.phase?_of_called called)
      cases hunderway
  | retry called ended boards =>
      obtain ⟨input, hinput, hunderway⟩ := hprogress.called (State.phase?_of_called called)
      cases hunderway

/-- A leader lands with what it has made of the backend's answer. -/
theorem Progress.land {sent : Sent} {outcome : Outcome} {verdict : Verdict}
    (hcall : s.calls[id]? = some ⟨.leading sent, false⟩) (hcache : s'.cache = cache)
    (hpolicy : cache.policy = s.cache.policy)
    (hcalls : s'.calls = (s.enter id (.finished outcome)).calls)
    (hheld : ∀ key, key ≠ sent.flight.key → held cache key = held s.cache key)
    (hverdict : ∀ r query time, sent = search.sentOf r query time →
      search.answered backend first.policy r query = verdict)
    (houtcome : outcome.untimed = verdict.outcome)
    (hleft : held s.cache sent.flight.key = none → held cache sent.flight.key = verdict.left) :
    search.Progress backend first inputs s' := by
  obtain ⟨input, hinput, hunderway⟩ := hprogress.called (State.phase?_of_called hcall)
  cases hunderway with
  | @leading r query time asked missed valid compiled absent =>
      have hsettles : search.verdict backend first.policy r (held first (search.key r)) =
          verdict := by
        rw [verdict_of_missed missed, fetched_of_compiled valid compiled]
        exact hverdict r query time rfl
      subst hcache
      refine hprogress.enter hkeys hinput hcalls hpolicy (fun key hother => hheld key ?_)
        (.settled asked ?_ ?_)
      · rintro rfl
        exact hother (keyOf_ok asked)
      · rw [hsettles]
        exact houtcome
      · rw [hsettles]
        exact hleft absent

theorem Progress.reply (hliving : s.cache.Living s.now) {answer : Except Failure Json}
    (hbacked : ∀ sent, s.phase? id = some (.leading sent) → answer = backend sent.call)
    (hstorable : ∀ key ttl, first.policy.resolveTtl key search.settings.resultTtl = .ok ttl →
      ∃ deadline, Timeline.after s.now ttl = .ok deadline ∧
        Timeline.reached s.now deadline = false)
    (hroom : (search.reply s id answer).1.cache.counters.evictions =
      s.cache.counters.evictions) :
    search.Progress backend first inputs (search.reply s id answer).1 := by
  have hmove := search.reply_move s id answer
  generalize (search.reply s id answer).1 = s' at hmove hroom
  cases hmove with
  | stay => exact hprogress
  | @fail _ sent failure called =>
      have hanswer := hbacked sent (State.phase?_of_called called)
      have hverdict : ∀ r query time, sent = search.sentOf r query time →
          search.answered backend first.policy r query = ⟨.raised (.backend failure), none⟩ := by
        rintro r query time rfl
        have hcall : backend (search.backendCall r query) = .error failure := hanswer.symm
        simp only [answered, hcall]
      exact hprogress.land hkeys called rfl rfl rfl (fun _ _ => rfl) hverdict rfl
        fun absent => absent
  | @garble _ sent value called garbled =>
      have hanswer := hbacked sent (State.phase?_of_called called)
      have hverdict : ∀ r query time, sent = search.sentOf r query time →
          search.answered backend first.policy r query = ⟨.raised (.notRecords value), none⟩ := by
        rintro r query time rfl
        have hcall : backend (search.backendCall r query) = .ok value := hanswer.symm
        simp only [answered, hcall, garbled]
      exact hprogress.land hkeys called rfl rfl rfl (fun _ _ => rfl) hverdict rfl
        fun absent => absent
  | @keep _ sent value records kept log called told keeps =>
      have hanswer := hbacked sent (State.phase?_of_called called)
      cases httl : s.cache.policy.resolveTtl sent.flight.key search.settings.resultTtl with
      | error cause =>
          rw [keep_refused httl] at keeps
          cases keeps
      | ok ttl =>
          obtain ⟨left, log', hkeep, hpolicy, hheld⟩ :=
            keep_living hliving httl (hstorable _ ttl (hprogress.policy_eq ▸ httl))
          rw [keeps] at hkeep
          cases hkeep
          have hleft := hheld hroom
          have hverdict : ∀ r query time, sent = search.sentOf r query time →
              search.answered backend first.policy r query =
                ⟨.returned (search.resultOf s.now sent records).untimed,
                  some (.result (search.resultOf s.now sent records).untimed)⟩ := by
            rintro r query time rfl
            have hcall : backend (search.backendCall r query) = .ok value := hanswer.symm
            have hseconds : first.policy.resolveTtl (search.key r) search.settings.resultTtl =
                .ok ttl := hprogress.policy_eq ▸ httl
            simp only [answered, hcall, told, hseconds]
            rfl
          refine hprogress.land hkeys called (show _ = left from rfl) hpolicy rfl
            (fun key hne => ?_) hverdict rfl fun _ => ?_
          · rw [hleft, if_neg hne]
          · rw [hleft, if_pos rfl]
  | @lose _ sent value records cause lost log called told loses =>
      have hanswer := hbacked sent (State.phase?_of_called called)
      cases httl : s.cache.policy.resolveTtl sent.flight.key search.settings.resultTtl with
      | error cause =>
          rw [keep_refused httl] at loses
          cases loses
          have hverdict : ∀ r query time, sent = search.sentOf r query time →
              search.answered backend first.policy r query =
                ⟨.raised (.cache (.ttl cause)), none⟩ := by
            rintro r query time rfl
            have hcall : backend (search.backendCall r query) = .ok value := hanswer.symm
            have hseconds : first.policy.resolveTtl (search.key r) search.settings.resultTtl =
                .error cause := hprogress.policy_eq ▸ httl
            simp only [answered, hcall, told, hseconds]
          exact hprogress.land hkeys called rfl rfl rfl (fun _ _ => rfl) hverdict rfl
            fun absent => absent
      | ok ttl =>
          obtain ⟨left, log', hkeep, -⟩ :=
            keep_living hliving httl (hstorable _ ttl (hprogress.policy_eq ▸ httl))
          rw [loses] at hkeep
          cases hkeep

end Steps

theorem Progress.arrive (hprogress : search.Progress backend first inputs s)
    (hkeys : ((inputs ++ [input]).filterMap search.keyOf).Nodup) :
    search.Progress backend first (inputs ++ [input])
      { s with calls := s.calls ++ [{ phase := .ready input }] } where
  length_eq := by
    rw [List.length_append, List.length_append, hprogress.length_eq]
    rfl
  unasked other := by
    rw [State.asked_arrive_iff]
    exact hprogress.unasked other
  underway other input' hother := by
    rw [State.phase?_arrive, hprogress.length_eq]
    by_cases hlast : other = inputs.length
    · rw [hlast, List.getElem?_concat_length, Option.some.injEq] at hother
      subst hother
      refine ⟨.ready input, if_pos hlast, .ready fun r hasked => hprogress.others _ fun hmem => ?_⟩
      rw [List.filterMap_append, List.nodup_append] at hkeys
      refine hkeys.2.2 _ hmem _ ?_ rfl
      simp [keyOf_ok hasked]
    · have hlt : other < inputs.length := by
        have hle := (List.getElem?_eq_some_iff.1 hother).1
        rw [List.length_append, List.length_singleton] at hle
        exact Nat.lt_of_le_of_ne (Nat.le_of_lt_succ hle) hlast
      rw [List.getElem?_append_left hlt] at hother
      obtain ⟨phase, hphase, hunderway⟩ := hprogress.underway other input' hother
      exact ⟨phase, by rw [if_neg hlast, hphase], hunderway⟩
  others key hkey := by
    refine hprogress.others key fun hmem => hkey ?_
    rw [List.filterMap_append]
    exact List.mem_append_left _ hmem
  policy_eq := hprogress.policy_eq

/-! ### Calm runs -/

theorem arrivals_concat (events : List Event) (event : Event) :
    arrivals (events ++ [event]) = arrivals events ++ event.input?.toList := by
  rw [arrivals, List.filterMap_append, arrivals]
  cases hinput : event.input? <;> simp [hinput]

variable {start : State} {events : List Event} {event : Event}

/-- One more event of a calm run brings every call as far as it should be. -/
theorem Progress.step (hprogress : search.Progress backend first inputs s)
    (hkeys : ((inputs ++ event.input?.toList).filterMap search.keyOf).Nodup)
    (hflights : s.SingleFlight) (hliving : s.cache.Living s.now) (hplain : event.isPlain = true)
    (hbacked : ∀ id answer sent, event = .reply id answer → s.phase? id = some (.leading sent) →
      answer = backend sent.call)
    (hstorable : ∀ key ttl, first.policy.resolveTtl key search.settings.resultTtl = .ok ttl →
      ∃ deadline, Timeline.after s.now ttl = .ok deadline ∧
        Timeline.reached s.now deadline = false)
    (hroom : (search.step s event).1.cache.counters.evictions = s.cache.counters.evictions) :
    search.Progress backend first (inputs ++ event.input?.toList) (search.step s event).1 := by
  cases event with
  | arrive input => exact hprogress.arrive hkeys
  | resume id =>
      simp only [Event.input?, Option.toList_none, List.append_nil] at hkeys ⊢
      exact hprogress.resume hkeys hflights hliving id
  | reply id answer =>
      simp only [Event.input?, Option.toList_none, List.append_nil] at hkeys ⊢
      exact hprogress.reply hkeys hliving (fun sent => hbacked id answer sent rfl) hstorable hroom
  | advance seconds =>
      simp only [Event.input?, Option.toList_none, List.append_nil]
      exact ⟨hprogress.length_eq, hprogress.unasked, hprogress.underway, hprogress.others,
        hprogress.policy_eq⟩
  | cancel id => cases hplain
  | cache command => cases hplain

theorem writes_eq_false_of_plain (hplain : event.isPlain = true) : event.writes = false := by
  cases event with
  | cache command => cases hplain
  | arrive | resume | reply | cancel | advance => rfl

/-- What stands in the cache behind an event was there before, or has been stored just now. -/
theorem mem_step_plain (hplain : event.isPlain = true) {e : Cache.Entry Float Stored}
    (he : e ∈ (search.step s event).1.cache.entries) :
    (∃ old ∈ s.cache.entries, e = { old with hits := e.hits }) ∨
      ∃ key, s.cache.policy.resolveTtl key search.settings.resultTtl = .ok e.ttl ∧
        e.createdAt = s.now := by
  by_cases hfetch : ∃ id sent records, Fetches s event id sent records
  · obtain ⟨id, sent, records, hfetches⟩ := hfetch
    obtain ⟨outcome, hstep, -⟩ : ∃ outcome, _ ∧ _ := hfetches.step_eq
    rw [hstep, State.cache_land] at he
    rcases mem_keep_cases he with ⟨seconds, hseconds, rfl⟩ | hold
    · exact .inr ⟨_, hseconds, rfl⟩
    · exact .inl ⟨e, hold, rfl⟩
  · have hnone : ∀ id sent records, ¬ Fetches s event id sent records :=
      fun id sent records hfetches => hfetch ⟨id, sent, records, hfetches⟩
    exact .inl (keeps_step (writes_eq_false_of_plain hplain) hnone e he)

section Runs

variable (hnew : start.calls = []) (hidle : start.inflight = [])
  (hcalm : search.Calm backend start events)
  (hkeys : ((arrivals events).filterMap search.keyOf).Nodup)

include hcalm in
/-- Nothing that comes into the cache runs out before the end. -/
theorem Calm.lasts_step {earlier : List Event} (hpart : earlier ++ [event] <+: events)
    (hpolicy : (search.run start earlier).cache.policy = start.cache.policy)
    (hlasts : ∀ e ∈ (search.run start earlier).cache.entries, ∀ later, earlier <+: later →
      later <+: events → e.isExpired (search.run start later).now = .ok false) :
    ∀ e ∈ (search.run start (earlier ++ [event])).cache.entries,
      ∀ later, earlier ++ [event] <+: later → later <+: events →
        e.isExpired (search.run start later).now = .ok false := by
  intro e he later hbehind hlater
  have hearlier : earlier <+: later := (List.prefix_append _ _).trans hbehind
  rw [run_concat] at he
  rcases mem_step_plain (hcalm.plain event (hpart.subset (by simp))) he with
    ⟨old, hold, hsame⟩ | ⟨key, hseconds, hcreated⟩
  · rw [hsame]
    exact hlasts old hold later hearlier hlater
  · rw [hpolicy] at hseconds
    obtain ⟨deadline, hafter, hreached⟩ :=
      hcalm.storable key e.ttl hseconds earlier later hearlier hlater
    simp only [Cache.Entry.isExpired, Cache.Entry.expiresAt, hcreated, hafter, Except.map, hreached]

include hnew hidle hcalm hkeys in
/-- At every point of a calm run each call is as far as it should be, and nothing has run out. -/
theorem Calm.progress (earlier : List Event) (hpart : earlier <+: events) :
    search.Progress backend start.cache (arrivals earlier) (search.run start earlier) ∧
      ∀ e ∈ (search.run start earlier).cache.entries, ∀ later, earlier <+: later →
        later <+: events → e.isExpired (search.run start later).now = .ok false := by
  induction earlier using List.reverseRecOn with
  | nil =>
      refine ⟨⟨?_, ?_, ?_, fun key _ => rfl, rfl⟩, fun e he later _ => hcalm.lasting e he later⟩
      · simp [run, hnew, arrivals]
      · simp [run, State.Asked, hnew]
      · simp [arrivals]
  | append_singleton earlier event ih =>
      have hearlier : earlier <+: events := (List.prefix_append _ _).trans hpart
      obtain ⟨hprogress, hlasts⟩ := ih hearlier
      obtain ⟨rest, rfl⟩ := hpart
      have hstep : search.Progress backend start.cache (arrivals earlier ++ event.input?.toList)
          (search.step (search.run start earlier) event).1 := by
        apply hprogress.step
        · rw [← arrivals_concat]
          rw [arrivals, List.filterMap_append, ← arrivals, List.filterMap_append,
            List.nodup_append] at hkeys
          exact hkeys.1
        · exact run_singleFlight earlier (State.singleFlight_of_idle hnew hidle)
        · exact fun e he => hlasts e he earlier (List.prefix_refl _) hearlier
        · exact hcalm.plain event (by simp)
        · have hbacked := hcalm.backed
          rw [List.append_assoc, backed_append_iff] at hbacked
          exact hbacked.2.1
        · exact fun key ttl httl =>
            hcalm.storable key ttl httl earlier earlier (List.prefix_refl _) hearlier
        · rw [← run_concat, hcalm.roomy _ (List.prefix_append _ _), hcalm.roomy _ hearlier]
      rw [arrivals_concat, run_concat]
      refine ⟨hstep, ?_⟩
      rw [← run_concat]
      exact hcalm.lasts_step (List.prefix_append _ _) hprogress.policy_eq hlasts

end Runs

/-! ### Room for all answers -/

def Event.isReply : Event → Bool
  | .reply _ _ => true
  | _ => false

theorem keep_trims (s : State) (key : String) (result : SearchResult) :
    Cache.Trims s.cache (search.keep s key result).2.1.cache ∨
      ∃ new, Cache.Trims (s.cache.place new).1 (search.keep s key result).2.1.cache := by
  cases hseconds : s.cache.policy.resolveTtl key search.settings.resultTtl with
  | error cause =>
      rw [keep_refused hseconds]
      exact .inl (.refl _)
  | ok seconds =>
      have hstore := s.cache.store_trims s.now key (.result result) seconds
      refine .inr ⟨_, hstore.trans ?_⟩
      simp only [keep, Cache.insert, hseconds]
      split
      · exact .refl _
      · split
        · split
          · exact Cache.sweep_trims ‹_›
          · exact .refl _
        · exact .refl _

/-- Only an answer brings an entry in, and no more than one. -/
theorem step_trims (hplain : event.isPlain = true) :
    Cache.Trims s.cache (search.step s event).1.cache ∨ event.isReply = true ∧
      ∃ new, Cache.Trims (s.cache.place new).1 (search.step s event).1.cache := by
  have hmove := search.step_move s event
  generalize (search.step s event).1 = s' at hmove
  cases hmove with
  | stay | arrive | ask | advance | quit | refuse | overflow | drop | adopt | fail | garble =>
      exact .inl (.refl _)
  | tell command => cases hplain
  | hit called asked looked payload => exact .inl (Cache.get?_trims looked)
  | miss called asked missed boards =>
      rw [boards.cache_eq]
      exact .inl missed.trims
  | retry called ended boards =>
      rw [boards.cache_eq]
      exact .inl (.refl _)
  | @keep id sent value records kept log called told keeps =>
      have htrims := @keep_trims search s sent.flight.key (search.resultOf s.now sent records)
      rw [keeps] at htrims
      exact htrims.imp_right fun hnew => ⟨rfl, hnew⟩
  | @lose id sent value records cause lost log called told loses =>
      have htrims := @keep_trims search s sent.flight.key (search.resultOf s.now sent records)
      rw [loses] at htrims
      exact htrims.imp_right fun hnew => ⟨rfl, hnew⟩

/-- Nothing is evicted from a cache that has room for all the answers. -/
theorem run_roomy {events : List Event} (hplain : ∀ event ∈ events, event.isPlain = true)
    (hroom : s.cache.size + events.countP Event.isReply ≤ s.cache.policy.maxKeys) :
    (search.run s events).cache.counters.evictions = s.cache.counters.evictions := by
  induction events generalizing s with
  | nil => rfl
  | cons event rest ih =>
      rw [List.forall_mem_cons] at hplain
      rw [List.countP_cons] at hroom
      have hrun : search.run s (event :: rest) = search.run (search.step s event).1 rest := rfl
      rw [hrun]
      rcases step_trims hplain.1 with htrims | ⟨hreply, new, htrims⟩
      · have hsize := htrims.size_le
        rw [ih hplain.2 (by rw [htrims.policy_eq]; omega), htrims.evictions_eq]
      · rw [hreply, if_pos rfl] at hroom
        have hfree : s.cache.size < s.cache.policy.maxKeys := by omega
        have hsize := Nat.le_trans htrims.size_le (s.cache.place_size_le new)
        rw [ih hplain.2 (by rw [htrims.policy_eq, Cache.place_policy]; omega),
          htrims.evictions_eq, Cache.place_evictions hfree]

/-! ### The clock and the backend -/

theorem now_step (hstill : ∀ seconds, event ≠ .advance seconds) :
    (search.step s event).1.now = s.now := by
  have hmove := search.step_move s event
  generalize (search.step s event).1 = s' at hmove
  cases hmove with
  | advance seconds => exact absurd rfl (hstill seconds)
  | miss called asked missed boards => cases boards <;> rfl
  | retry called ended boards => cases boards <;> rfl
  | keep called answered kept => rw [search.keep_frame s kept, State.now_land]
  | lose called answered lost => rw [search.keep_frame s lost, State.now_land]
  | stay | arrive | ask | tell | quit | refuse | overflow | hit | drop | adopt | fail | garble =>
      rfl

/-- The clock stands still unless it is told to move. -/
theorem run_now {events : List Event}
    (hstill : ∀ event ∈ events, ∀ seconds, event ≠ .advance seconds) :
    (search.run s events).now = s.now := by
  induction events generalizing s with
  | nil => rfl
  | cons event rest ih =>
      rw [List.forall_mem_cons] at hstill
      have hrun : search.run s (event :: rest) = search.run (search.step s event).1 rest := rfl
      rw [hrun, ih hstill.2, now_step hstill.1]

/-- A backend that answers everything alike. -/
theorem backed_const {answer : Except Failure Json} {events : List Event}
    (hanswers : ∀ event ∈ events, ∀ id given, event = .reply id given → given = answer) :
    search.Backed (fun _ => answer) s events := by
  induction events generalizing s with
  | nil => trivial
  | cons event rest ih =>
      rw [List.forall_mem_cons] at hanswers
      exact ⟨fun id given sent hreply _ => hanswers.1 id given hreply, ih hanswers.2⟩

end Search
end IssueSearch
