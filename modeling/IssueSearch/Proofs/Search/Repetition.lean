import IssueSearch.Proofs.Cache.Alike
import IssueSearch.Proofs.Search.Attempt
/-!
A call made once more. Two calls for one input that are alone, each in a state of its own, take the
same way if the clock reads the same, the same keys are in flight, and the caches are alike but for
their counters and for an entry that a lookup clears away at once.
-/
namespace IssueSearch.Search

/-- An entry that a lookup at some time clears away: it has expired, or it is none of ours. -/
def Dead (e : Cache.Entry Float Stored) (time : Float) : Prop :=
  e.isExpired time = .ok true ∨
    e.isExpired time = .ok false ∧ ∃ value, e.payload = .foreign value

variable {search : Search} {cache cache' left left' : Cache Float Stored} {time : Float}
  {key : String} {e : Cache.Entry Float Stored}

/-- As long as the clock does not go back, nothing comes to life again. -/
theorem Dead.mono (hdead : Dead e time) {later : Float}
    (hclock : ∀ deadline, Timeline.reached time deadline = true →
      Timeline.reached later deadline = true) : Dead e later := by
  have htell : ∀ {deadline : Float}, Timeline.after e.createdAt e.ttl = .ok deadline →
      e.isExpired later = .ok (Timeline.reached later deadline) := by
    intro deadline hafter
    rw [Cache.Entry.isExpired, Cache.Entry.expiresAt, hafter]
    rfl
  rcases hdead with hexpired | ⟨hexpired, hforeign⟩
  · obtain ⟨deadline, hafter, hreached⟩ := Cache.Entry.isExpired_eq_ok hexpired
    refine .inl ?_
    rw [htell hafter, hclock deadline hreached]
  · obtain ⟨deadline, hafter, -⟩ := Cache.Entry.isExpired_eq_ok hexpired
    cases hlater : Timeline.reached later deadline with
    | true => exact .inl (by rw [htell hafter, hlater])
    | false => exact .inr ⟨by rw [htell hafter, hlater], hforeign⟩

/-- Whatever misses leaves the entries without that of the key, and counts the lookup. -/
theorem Misses.bare_eq (hmisses : Misses cache time key left) :
    left.bare = { cache.bare with entries := Cache.without key cache.entries } := by
  cases hmisses with
  | absent looked =>
      obtain ⟨found, left', hlooks, hcount⟩ := Cache.get?_eq_ok looked
      cases hlooks with
      | absent missing =>
          cases hcount
          rw [Cache.without_eq_self missing]
          rfl
      | expired stored expired =>
          cases hcount
          rfl
      | live stored unexpired => cases hcount
  | thrown looked payload =>
      obtain ⟨found, left', hlooks, hcount⟩ := Cache.get?_eq_ok looked
      cases hlooks with
      | absent missing => cases hcount
      | expired stored expired => cases hcount
      | @live old stored unexpired =>
          cases hcount
          have hkey : ({ old with hits := old.hits + 1 } : Cache.Entry Float Stored).key = key :=
            (Cache.stored?_some stored).2
          have hwithout : Cache.without key
              (Cache.replace { old with hits := old.hits + 1 } cache.entries) =
                Cache.without key cache.entries := Cache.without_replace hkey _
          rw [Cache.bare_erase, ← hwithout]
          rfl

/-- What a lookup that misses finds under its key is dead. -/
theorem Misses.dead (hmisses : Misses cache time key left) (hstored : cache.stored? key = some e) :
    Dead e time := by
  cases hmisses with
  | absent looked =>
      obtain ⟨found, left', hlooks, hcount⟩ := Cache.get?_eq_ok looked
      cases hlooks with
      | absent missing =>
          rw [missing] at hstored
          cases hstored
      | expired stored expired =>
          rw [stored] at hstored
          cases hstored
          exact .inl expired
      | live stored unexpired => cases hcount
  | @thrown left entry value looked payload =>
      obtain ⟨old, hold, hunexpired, rfl, -⟩ := Cache.get?_eq_some looked
      rw [hold] at hstored
      cases hstored
      exact .inr ⟨hunexpired, value, payload⟩

theorem Dead.misses (hdead : Dead e time) (hstored : cache.stored? key = some e) :
    ∃ left, Misses cache time key left := by
  rcases hdead with hexpired | ⟨hunexpired, value, hpayload⟩
  · have hlooked : cache.get? time key = .ok (none, { cache with
        entries := Cache.without key cache.entries
        counters.misses := cache.counters.misses + 1 }) := by
      simp only [Cache.get?, Cache.live, hstored, hexpired]
      rfl
    exact ⟨_, .absent hlooked⟩
  · have hlooked : cache.get? time key = .ok (some { e with hits := e.hits + 1 }, { cache with
        entries := Cache.replace { e with hits := e.hits + 1 } cache.entries
        counters.hits := cache.counters.hits + 1 }) := by
      simp only [Cache.get?, Cache.live, hstored, hunexpired]
      rfl
    exact ⟨_, .thrown hlooked hpayload⟩

/-- A cache is what another would be, counters aside, if an entry were cleared away that is there
under a key. -/
structure Cleared (key : String) (time : Float) (cache cache' : Cache Float Stored) : Prop where
  bare : cache.bare = { cache'.bare with entries := Cache.without key cache'.entries }
  dead : ∃ e, cache'.stored? key = some e ∧ Dead e time

/-- A lookup fails in two caches alike, finds one result in both, or misses in both and leaves
caches that are alike but for their counters. -/
inductive LooksAlike (key : String) (time : Float) (cache cache' : Cache Float Stored) : Prop
  | error {cause : Overflow} (looked : cache.get? time key = .error cause)
      (looked' : cache'.get? time key = .error cause) (alike : cache.bare = cache'.bare)
  | hit {entry : Cache.Entry Float Stored} {result : SearchResult} {left left' : Cache Float Stored}
      (looked : cache.get? time key = .ok (some entry, left))
      (looked' : cache'.get? time key = .ok (some entry, left'))
      (payload : entry.payload = .result result) (alike : left.bare = left'.bare)
  | miss {left left' : Cache Float Stored} (missed : Misses cache time key left)
      (missed' : Misses cache' time key left') (alike : left.bare = left'.bare)

theorem LooksAlike.of_bare (hbare : cache.bare = cache'.bare) :
    LooksAlike key time cache cache' := by
  have hlooked : (cache.get? time key).map (Prod.map id Cache.bare) =
      (cache'.get? time key).map (Prod.map id Cache.bare) := by
    rw [← Cache.get?_bare, ← Cache.get?_bare cache', hbare]
  rcases hget : cache.get? time key with cause | ⟨found, left⟩ <;>
    rcases hget' : cache'.get? time key with cause' | ⟨found', left'⟩ <;>
    rw [hget, hget'] at hlooked
  · obtain rfl := Except.error.inj hlooked
    exact .error hget hget' hbare
  · cases hlooked
  · cases hlooked
  · obtain ⟨rfl, hleft⟩ := Prod.mk.inj (Except.ok.inj hlooked)
    cases found with
    | none => exact .miss (.absent hget) (.absent hget') hleft
    | some entry =>
        cases hpayload : entry.payload with
        | result result => exact .hit hget hget' hpayload hleft
        | foreign value =>
            refine .miss (.thrown hget hpayload) (.thrown hget' hpayload) ?_
            have hentries : left.entries = left'.entries := by
              rw [← left.entries_bare, hleft, left'.entries_bare]
            rw [Cache.bare_erase, Cache.bare_erase, hentries, hleft]

theorem Cleared.looks (hcleared : Cleared key time cache cache') :
    LooksAlike key time cache cache' := by
  obtain ⟨hbare, e, hstored, hdead⟩ := hcleared
  have hentries : cache.entries = Cache.without key cache'.entries :=
    congrArg Cache.entries hbare
  have hlacks : Lacks cache key := by
    intro e he
    rw [hentries] at he
    exact (Cache.mem_without.1 he).2
  obtain ⟨left', hmissed'⟩ := hdead.misses hstored
  refine .miss (.absent (hlacks.looked time)) hmissed' ?_
  rw [hmissed'.bare_eq, ← hbare]
  rfl

theorem Cleared.mono (hcleared : Cleared key time cache cache') {later : Float}
    (hclock : ∀ deadline, Timeline.reached time deadline = true →
      Timeline.reached later deadline = true) : Cleared key later cache cache' := by
  obtain ⟨hbare, e, hstored, hdead⟩ := hcleared
  exact ⟨hbare, e, hstored, hdead.mono hclock⟩

/-- A call has not looked its key up: it has not begun, or it has ended before it did. -/
def State.Unlooked (s : State) (id : CallId) : Prop :=
  ∃ call, s.calls[id]? = some call ∧
    ((∃ input, call.phase = .ready input) ∨ call.phase = .finished .cancelled)

section Twin

variable {a b a' b' : State} {n m : CallId}

/-- Two calls at the same point of their ways, each in its own state. -/
structure Twin (key : String) (a b : State) (n m : CallId) : Prop where
  call : a.calls[n]? = b.calls[m]?
  now : a.now = b.now
  cache : a.cache.bare = b.cache.bare ∨ Cleared key b.now a.cache b.cache ∧ b.Unlooked m

theorem Twin.of_enter (hcall : a.calls[n]? = b.calls[m]?) {phase : Phase}
    (hcalls : a'.calls = (a.enter n phase).calls) (hcalls' : b'.calls = (b.enter m phase).calls)
    (hnow : a'.now = b'.now) (hbare : a'.cache.bare = b'.cache.bare) : Twin key a' b' n m := by
  refine ⟨?_, hnow, .inl hbare⟩
  simp only [hcalls, hcalls', State.enter, List.getElem?_modify_eq, hcall]

theorem Twin.of_cancelled (htwin : Twin key a b n m)
    (hcalls : a'.calls = (a.enter n (.finished .cancelled)).calls)
    (hcalls' : b'.calls = (b.enter m (.finished .cancelled)).calls) (hnow : a'.now = a.now)
    (hnow' : b'.now = b.now) (hcache : a'.cache = a.cache) (hcache' : b'.cache = b.cache) :
    Twin key a' b' n m := by
  refine ⟨?_, by rw [hnow, hnow', htwin.now], ?_⟩
  · simp only [hcalls, hcalls', State.enter, List.getElem?_modify_eq, htwin.call]
  · rw [hcache, hcache', hnow']
    refine htwin.cache.imp_right ?_
    rintro ⟨hcleared, call, hcall, -⟩
    refine ⟨hcleared, { call with phase := .finished .cancelled }, ?_, .inr rfl⟩
    simp [hcalls', State.enter, hcall]

/-- A call that leads or follows has looked its key up. -/
theorem Twin.bare_eq (htwin : Twin key a b n m) {call : Call} (hcall : b.calls[m]? = some call)
    (hready : ∀ input, call.phase ≠ .ready input) (hended : call.phase ≠ .finished .cancelled) :
    a.cache.bare = b.cache.bare := by
  rcases htwin.cache with hbare | ⟨-, call', hcall', hphase⟩
  · exact hbare
  · rw [hcall] at hcall'
    obtain rfl := Option.some.inj hcall'
    rcases hphase with ⟨input, hphase⟩ | hphase
    · exact absurd hphase (hready input)
    · exact absurd hphase hended

theorem Twin.looks (htwin : Twin key a b n m) : LooksAlike key b.now a.cache b.cache := by
  rcases htwin.cache with hbare | ⟨hcleared, -⟩
  · exact .of_bare hbare
  · exact hcleared.looks

variable (search) in
theorem keep_bare (hnow : a.now = b.now) (hbare : a.cache.bare = b.cache.bare) (key : String)
    (result : SearchResult) :
    (search.keep a key result).1 = (search.keep b key result).1 ∧
      (search.keep a key result).2.1.cache.bare = (search.keep b key result).2.1.cache.bare := by
  have hinsert := a.cache.insert_bare a.now key (Stored.result result) search.settings.resultTtl
  have hinsert' := b.cache.insert_bare b.now key (Stored.result result) search.settings.resultTtl
  rw [hbare, hnow] at hinsert
  simp only [keep, hnow]
  generalize a.cache.insert b.now key (Stored.result result) search.settings.resultTtl = inserted
    at hinsert ⊢
  generalize b.cache.insert b.now key (Stored.result result) search.settings.resultTtl = inserted'
    at hinsert' ⊢
  obtain ⟨stored, left, log⟩ := inserted
  obtain ⟨stored', left', log'⟩ := inserted'
  obtain rfl : stored = stored' := hinsert.1.symm.trans hinsert'.1
  have hleft : left.bare = left'.bare := hinsert.2.symm.trans hinsert'.2
  rw [Cache.eq_of_bare hleft]
  cases stored with
  | error cause => exact ⟨rfl, rfl⟩
  | ok e =>
      have hsize : ({ left' with counters := left.counters } : Cache Float Stored).size =
        left'.size := rfl
      simp only [hsize, Cache.sweep]
      split
      · cases Cache.unexpired b.now left'.entries <;> exact ⟨rfl, rfl⟩
      · exact ⟨rfl, rfl⟩

variable (search) in
theorem board_twin (hcall : a.calls[n]? = b.calls[m]?) (hnow : a.now = b.now)
    (hbare : a.cache.bare = b.cache.bare) (hinflight : a.inflight = b.inflight)
    (flight : Flight) :
    Twin key (search.board a n flight).1 (search.board b m flight).1 n m := by
  simp only [board, hinflight]
  split
  · exact .of_enter hcall rfl rfl hnow hbare
  · simp only [lead, hnow]
    split
    · split
      · exact .of_enter hcall rfl rfl rfl hbare
      · exact .of_enter hcall rfl rfl rfl hbare
    · exact .of_enter hcall rfl rfl rfl hbare

variable {s s' : State} {input : Input} {r : Request} {happenings : List Happening}

theorem begin_miss (id : CallId) (hmissed : Misses s.cache s.now (search.key r) left) :
    (search.begin s id r).1 =
      (search.board { s with cache := left } id (search.flightOf r s.now)).1 := by
  cases hmissed with
  | absent looked =>
      simp only [begin, looked]
      rfl
  | thrown looked payload =>
      simp only [begin, looked, payload]
      rfl

theorem begin_twin (htwin : Twin (search.key r) a b n m) (hinflight : a.inflight = b.inflight) :
    Twin (search.key r) (search.begin a n r).1 (search.begin b m r).1 n m := by
  have hlooks := htwin.looks
  have hflight : search.flightOf r a.now = search.flightOf r b.now := by rw [htwin.now]
  cases hlooks with
  | error looked looked' alike =>
      rw [← htwin.now] at looked
      simp only [begin, looked, looked']
      exact .of_enter htwin.call rfl rfl htwin.now alike
  | hit looked looked' payload alike =>
      rw [← htwin.now] at looked
      simp only [begin, looked, looked', payload]
      exact .of_enter htwin.call rfl rfl htwin.now alike
  | miss missed missed' alike =>
      rw [← htwin.now] at missed
      rw [begin_miss n missed, begin_miss m missed', hflight]
      refine board_twin search ?_ ?_ alike ?_ _
      · exact htwin.call
      · exact htwin.now
      · exact hinflight

theorem reply_twin (htwin : Twin key a b n m) (answer : Except Failure Json) :
    Twin key (search.reply a n answer).1 (search.reply b m answer).1 n m := by
  simp only [reply, htwin.call]
  split
  · rename_i led hcalled
    have hbare := htwin.bare_eq hcalled (by simp) (by simp)
    split
    · exact .of_enter htwin.call rfl rfl htwin.now hbare
    · split
      · exact .of_enter htwin.call rfl rfl htwin.now hbare
      · rename_i records hrecords
        have hresult : search.resultOf a.now led records = search.resultOf b.now led records := by
          rw [htwin.now]
        obtain ⟨hkept, hleft⟩ := keep_bare search htwin.now hbare led.flight.key
          (search.resultOf b.now led records)
        rw [hresult, hkept]
        rcases hkeep : search.keep a led.flight.key (search.resultOf b.now led records) with
          ⟨kept, s, log⟩
        rcases hkeep' : search.keep b led.flight.key (search.resultOf b.now led records) with
          ⟨kept', s', log'⟩
        rw [hkeep, hkeep'] at hleft
        rw [search.keep_frame a hkeep, search.keep_frame b hkeep']
        exact .of_enter htwin.call rfl rfl htwin.now hleft
  · exact htwin

theorem resume_twin (htwin : Twin key a b n m)
    (hasked : (∃ r, search.requestOf input = .ok r ∧ search.key r = key) ∨
      ∃ error, search.requestOf input = .error error ∧ a.cache.bare = b.cache.bare)
    (hready : ∀ input' requested, b.calls[m]? = some ⟨.ready input', requested⟩ →
      input' = input ∧ a.inflight = b.inflight)
    (hwaits : ∀ flight leader requested, b.calls[m]? = some ⟨.following flight leader, requested⟩ →
      a.outcome? leader = none ∧ b.outcome? leader = none) :
    Twin key (search.resume a n).1 (search.resume b m).1 n m := by
  simp only [resume, htwin.call]
  split
  · exact htwin
  · rename_i call hcalled
    rcases call with ⟨phase, requested⟩
    cases phase with
    | ready input' =>
        cases requested with
        | true => exact htwin.of_cancelled rfl rfl rfl rfl rfl rfl
        | false =>
            obtain ⟨rfl, hinflight⟩ := hready input' false hcalled
            rcases hasked with ⟨r, hasked, rfl⟩ | ⟨error, hasked, hbare⟩
            · simp only [hasked]
              exact begin_twin htwin hinflight
            · simp only [hasked]
              exact .of_enter htwin.call rfl rfl htwin.now hbare
    | leading led =>
        cases requested with
        | true => exact htwin.of_cancelled rfl rfl rfl rfl rfl rfl
        | false => exact htwin
    | following flight leader =>
        cases requested with
        | true => exact htwin.of_cancelled rfl rfl rfl rfl rfl rfl
        | false =>
            obtain ⟨hunended, hunended'⟩ := hwaits flight leader false hcalled
            simp only [hunended, hunended']
            exact htwin
    | finished outcome => exact htwin

theorem cancel_twin (htwin : Twin key a b n m) : Twin key (a.cancel n) (b.cancel m) n m := by
  refine ⟨?_, htwin.now, htwin.cache.imp_right ?_⟩
  · simp only [State.cancel, List.getElem?_modify_eq, htwin.call]
  · rintro ⟨hcleared, ⟨phase, requested⟩, hcall, hphase⟩
    refine ⟨hcleared, ?_⟩
    rcases hphase with ⟨input, rfl⟩ | rfl
    · refine ⟨⟨.ready input, true⟩, ?_, .inl ⟨input, rfl⟩⟩
      simp [State.cancel, hcall]
    · refine ⟨⟨.finished .cancelled, requested⟩, ?_, .inr rfl⟩
      simp [State.cancel, hcall]

theorem startedBy_twin (hphase : a.phase? n = b.phase? m) (hphase' : a'.phase? n = b'.phase? m) :
    startedBy a a' n = startedBy b b' m := by
  rw [startedBy, startedBy, hphase, hphase']

variable (search) in
/-- The clock does not go back: a deadline that has been reached stays reached. -/
def Steady (s : State) (events : List Event) : Prop :=
  ∀ earlier event later, events = earlier ++ event :: later → ∀ deadline : Float,
    Timeline.reached (search.run s earlier).now deadline = true →
      Timeline.reached (search.run s (earlier ++ [event])).now deadline = true

theorem Steady.of_concat {events : List Event} {event : Event}
    (hsteady : search.Steady s (events ++ [event])) : search.Steady s events := by
  rintro earlier event' later rfl
  exact hsteady earlier event' (later ++ [event]) (by simp)

/-- Two calls for one input take the same way. -/
theorem attempt_twin (hflights : s.SingleFlight) (hflights' : s'.SingleFlight)
    (hinflight : s.inflight = s'.inflight) (hnow : s.now = s'.now)
    (hasked : (∃ r, search.requestOf input = .ok r ∧ search.key r = key) ∨
      ∃ error, search.requestOf input = .error error ∧ s.cache.bare = s'.cache.bare)
    (hcache : s.cache.bare = s'.cache.bare ∨ Cleared key s'.now s.cache s'.cache)
    (hsteady : search.Steady s (alone s input happenings)) :
    Twin key (search.attempt s input happenings) (search.attempt s' input happenings)
        s.calls.length s'.calls.length ∧
      search.started s.calls.length s (alone s input happenings) =
        search.started s'.calls.length s' (alone s' input happenings) := by
  induction happenings using List.reverseRecOn with
  | nil =>
      have hcalls : (search.attempt s input []).calls = s.calls ++ [⟨.ready input, false⟩] := rfl
      have hcalls' : (search.attempt s' input []).calls = s'.calls ++ [⟨.ready input, false⟩] := rfl
      refine ⟨⟨?_, hnow, hcache.imp_right fun hcleared => ⟨hcleared, ?_⟩⟩, ?_⟩
      · rw [getElem?_last hcalls, getElem?_last hcalls']
      · exact ⟨_, getElem?_last hcalls', .inl ⟨input, rfl⟩⟩
      · rw [started_alone_nil, started_alone_nil]
  | append_singleton happenings happening ih =>
      have hsteady' := hsteady
      rw [alone_concat] at hsteady'
      obtain ⟨htwin, hstarted⟩ := ih hsteady'.of_concat
      have hnext : Twin key
          (search.step (search.attempt s input happenings) (happening.event s.calls.length)).1
          (search.step (search.attempt s' input happenings) (happening.event s'.calls.length)).1
          s.calls.length s'.calls.length := by
        cases happening with
        | resume =>
            have hasked' : (∃ r, search.requestOf input = .ok r ∧ search.key r = key) ∨
                ∃ error, search.requestOf input = .error error ∧
                  (search.attempt s input happenings).cache.bare =
                    (search.attempt s' input happenings).cache.bare := by
              refine hasked.imp_right ?_
              rintro ⟨error, hrefused, hbare⟩
              obtain ⟨_, _, _, hattempt, -⟩ : search.Untouched s input _ :=
                (attempt_untouched hrefused happenings).1
              obtain ⟨_, _, _, hattempt', -⟩ : search.Untouched s' input _ :=
                (attempt_untouched hrefused happenings).1
              exact ⟨error, hrefused, by rw [hattempt, hattempt']; exact hbare⟩
            refine resume_twin htwin hasked' ?_ ?_
            · intro input' requested hcall
              obtain ⟨heq, hown'⟩ := attempt_of_ready hflights' hcall
              obtain ⟨-, hown⟩ := attempt_of_ready hflights (htwin.call.trans hcall)
              exact ⟨heq, by rw [hown, hown', hinflight]⟩
            · intro flight leader requested hcall
              exact ⟨attempt_of_following hflights (htwin.call.trans hcall),
                attempt_of_following hflights' hcall⟩
        | reply answer => exact reply_twin htwin answer
        | cancel => exact cancel_twin htwin
        | advance seconds =>
            have hnext :
                (search.step (search.attempt s input happenings) (.advance seconds)).1.now =
                  (search.step (search.attempt s' input happenings) (.advance seconds)).1.now :=
              congrArg (· + seconds) htwin.now
            refine ⟨htwin.call, hnext, ?_⟩
            have hclock := hsteady' (alone s input happenings) (.advance seconds) [] rfl
            rw [run_concat, ← attempt] at hclock
            refine htwin.cache.imp_right ?_
            rintro ⟨hcleared, hunlooked⟩
            refine ⟨?_, hunlooked⟩
            refine hcleared.mono fun deadline hreached => ?_
            rw [← htwin.now] at hreached
            have hlater := hclock deadline hreached
            rwa [hnext] at hlater
      rw [← attempt_concat, ← attempt_concat] at hnext
      refine ⟨hnext, ?_⟩
      rw [started_alone_concat, started_alone_concat, hstarted,
        startedBy_twin (congrArg (Option.map Call.phase) htwin.call)
          (congrArg (Option.map Call.phase) hnext.call)]

end Twin

end IssueSearch.Search
