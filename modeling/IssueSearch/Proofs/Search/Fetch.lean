import IssueSearch.Proofs.Cache.Entries
import IssueSearch.Proofs.Search.Move
import Mathlib.Data.List.Induction
/-!
What a run puts into its cache. Where nothing else writes, every entry was stored by an answer with
records that a leader took in, and no later answer was stored under its key.
-/
namespace IssueSearch.Search

/-- An event is an answer with records that a leader takes in. -/
structure Fetches (s : State) (event : Event) (id : CallId) (sent : Sent) (records : List Json) :
    Prop where
  called : s.calls[id]? = some ⟨.leading sent, false⟩
  answered : ∃ value, event = .reply id (.ok value) ∧ recordsOf value = some records

/-- An event tells the cache to store something. -/
def Event.writes : Event → Bool
  | .cache command => command.isStore
  | _ => false

variable (search : Search)

/-- What is stored of an answer, counted hits aside. -/
def fetchedEntry (now : Float) (ttl : Int) (sent : Sent) (records : List Json) :
    Cache.Entry Float Stored :=
  { key := sent.flight.key, payload := .result (search.resultOf now sent records),
    createdAt := now, ttl }

variable {search : Search} {s : State} {ttl : Int}

theorem resolveTtl_int {policy : Cache.Policy} {key : String} (hpos : 0 < ttl) :
    policy.resolveTtl key (.int ttl) = .ok ttl := by
  simp only [Cache.Policy.resolveTtl, Cache.ttlOf, dif_pos hpos]
  rfl

theorem insert_ttl {c : Cache Float Stored} {now : Float} {key : String} {payload : Stored}
    (hpos : 0 < ttl) : c.insert now key payload (.int ttl) =
      ((c.store now key payload ttl).1.mapError .overflow, (c.store now key payload ttl).2) := by
  rw [Cache.insert, resolveTtl_int hpos]

/-- Keeping a result leaves some of what an insertion leaves. -/
theorem keep_sublist (s : State) (key : String) (result : SearchResult) :
    (search.keep s key result).2.1.cache.entries.Sublist
      (s.cache.insert s.now key (.result result) search.settings.resultTtl).2.1.entries := by
  simp only [keep]
  split
  · exact List.Sublist.refl _
  · split
    · split
      · rename_i hsweep
        exact Cache.unexpired_sublist (Cache.sweep_eq_ok hsweep)
      · exact List.Sublist.refl _
    · exact List.Sublist.refl _

/-- What stands in the cache behind a kept result: that result, and entries of other keys. -/
theorem mem_keep (httl : search.settings.resultTtl = .int ttl) (hpos : 0 < ttl) {key : String}
    {result : SearchResult} {e : Cache.Entry Float Stored}
    (hmem : e ∈ (search.keep s key result).2.1.cache.entries) :
    e = { key, payload := .result result, createdAt := s.now, ttl } ∨
      e ∈ s.cache.entries ∧ e.key ≠ key := by
  have hinsert := (keep_sublist s key result).subset hmem
  rw [httl, insert_ttl hpos] at hinsert
  exact Cache.mem_place ((s.cache.store_sublist s.now key (.result result) ttl).subset hinsert)

/-- Whatever the time to live comes to, it is that result or stood there before. -/
theorem mem_keep_cases {key : String} {result : SearchResult} {e : Cache.Entry Float Stored}
    (hmem : e ∈ (search.keep s key result).2.1.cache.entries) :
    (∃ seconds, s.cache.policy.resolveTtl key search.settings.resultTtl = .ok seconds ∧
      e = { key, payload := .result result, createdAt := s.now, ttl := seconds }) ∨
      e ∈ s.cache.entries := by
  have hinsert := (keep_sublist s key result).subset hmem
  unfold Cache.insert at hinsert
  split at hinsert
  · exact .inr hinsert
  · rename_i seconds hseconds
    rcases Cache.mem_place ((s.cache.store_sublist s.now key _ _).subset hinsert) with
      hnew | ⟨hold, -⟩
    · exact .inl ⟨seconds, hseconds, hnew⟩
    · exact .inr hold

theorem nearest_eq_ok {now deadline : Float} {seconds : Int}
    (hafter : Timeline.after now seconds = .ok deadline) :
    ∃ double, Decimal.nearest seconds = .ok double := by
  cases hdouble : Decimal.nearest seconds with
  | error cause =>
      simp only [Timeline.after, hdouble] at hafter
      cases hafter
  | ok double => exact ⟨double, rfl⟩

theorem unexpired_eq_ok {now : Float} {entries : List (Cache.Entry Float Stored)}
    (htell : ∀ e ∈ entries, ∃ expired, e.isExpired now = .ok expired) :
    ∃ kept, Cache.unexpired now entries = .ok kept := by
  induction entries with
  | nil => exact ⟨[], rfl⟩
  | cons e rest ih =>
      obtain ⟨expired, hexpired⟩ := htell e List.mem_cons_self
      obtain ⟨kept, hkept⟩ := ih fun e he => htell e (List.mem_cons_of_mem _ he)
      simp only [Cache.unexpired, hexpired, hkept]
      exact ⟨_, rfl⟩

/-- Whether an entry has expired can be told if its time to live is a double. -/
theorem isExpired_eq_ok {double : Float} (hdouble : Decimal.nearest ttl = .ok double)
    {e : Cache.Entry Float Stored} (he : e.ttl = ttl) (now : Float) :
    ∃ expired, e.isExpired now = .ok expired := by
  rw [Cache.Entry.isExpired, Cache.Entry.expiresAt, he]
  exact ⟨_, by simp only [Timeline.after, hdouble]; rfl⟩

/-- No lookup fails in a cache whose times to live are all doubles. -/
theorem get?_eq_ok {double : Float} (hdouble : Decimal.nearest ttl = .ok double)
    {cache : Cache Float Stored} (hall : ∀ e ∈ cache.entries, e.ttl = ttl) (now : Float)
    (key : String) : ∃ found, cache.get? now key = .ok found := by
  unfold Cache.get? Cache.live
  split
  · exact ⟨_, rfl⟩
  · rename_i e hstored
    have he := hall e (Cache.stored?_some hstored).1
    obtain ⟨expired, hexpired⟩ := isExpired_eq_ok hdouble he now
    rw [hexpired]
    exact ⟨_, rfl⟩

/-- A cache whose times to live are all doubles keeps what it is told to. -/
theorem keep_eq_ok (httl : search.settings.resultTtl = .int ttl) (hpos : 0 < ttl) {double : Float}
    (hdouble : Decimal.nearest ttl = .ok double) (hall : ∀ e ∈ s.cache.entries, e.ttl = ttl)
    (key : String) (result : SearchResult) : (search.keep s key result).1 = .ok () := by
  have htell : ∀ e : Cache.Entry Float Stored, e.ttl = ttl →
      ∃ expired, e.isExpired s.now = .ok expired := fun e he => isExpired_eq_ok hdouble he s.now
  have hplaced : ∀ e ∈ (s.cache.place ⟨key, .result result, s.now, ttl, 0⟩).1.entries,
      e.ttl = ttl := by
    intro e he
    rcases Cache.mem_place he with rfl | ⟨hold, -⟩
    · rfl
    · exact hall e hold
  have hstored : ∀ cause, (s.cache.store s.now key (.result result) ttl).1 ≠ .error cause := by
    intro cause hcause
    obtain ⟨kept, hkept⟩ := unexpired_eq_ok fun e he => htell e (hplaced e he)
    rw [Cache.store_eq_error hcause] at hkept
    cases hkept
  have hleft : ∀ e ∈ (s.cache.store s.now key (.result result) ttl).2.1.entries, e.ttl = ttl :=
    fun e he => hplaced e ((s.cache.store_sublist s.now key _ ttl).subset he)
  simp only [keep, httl, insert_ttl hpos]
  rcases hstore : s.cache.store s.now key (.result result) ttl with ⟨_ | stored, left, log⟩
  · exact absurd (by rw [hstore]) (hstored _)
  · simp only [Except.mapError]
    split
    · obtain ⟨kept, hkept⟩ := unexpired_eq_ok fun e he => htell e (hleft e (by rwa [hstore]))
      simp only [Cache.sweep, hkept]
      rfl
    · rfl

theorem Fetches.step_eq {event : Event} {id : CallId} {sent : Sent} {records : List Json}
    (hfetches : Fetches s event id sent records) : ∃ outcome,
      (search.step s event).1 = ((search.keep s sent.flight.key
        (search.resultOf s.now sent records)).2.1.land id sent.flight outcome).1 ∧
      ((search.keep s sent.flight.key (search.resultOf s.now sent records)).1 = .ok () →
        outcome = .returned (search.resultOf s.now sent records)) := by
  obtain ⟨hcalled, value, rfl, hanswered⟩ := hfetches
  simp only [step, reply, hcalled, hanswered]
  rcases hkeep : search.keep s sent.flight.key (search.resultOf s.now sent records) with
    ⟨cause | done, s', log⟩
  · refine ⟨_, rfl, fun hok => ?_⟩
    cases hok
  · exact ⟨_, rfl, fun _ => rfl⟩

theorem Fetches.sent_unique {event : Event} {id id' : CallId} {sent sent' : Sent}
    {records records' : List Json} (hfetches : Fetches s event id sent records)
    (hfetches' : Fetches s event id' sent' records') : sent = sent' := by
  obtain ⟨hcalled, value, rfl, -⟩ := hfetches
  obtain ⟨hcalled', value', heq, -⟩ := hfetches'
  cases heq
  rw [hcalled] at hcalled'
  cases hcalled'
  rfl

/-- A taken answer leaves its entry, and entries of other keys. -/
theorem Fetches.mem_step (httl : search.settings.resultTtl = .int ttl) (hpos : 0 < ttl)
    {event : Event} {id : CallId} {sent : Sent} {records : List Json}
    (hfetches : Fetches s event id sent records) {e : Cache.Entry Float Stored}
    (hmem : e ∈ (search.step s event).1.cache.entries) :
    e = search.fetchedEntry s.now ttl sent records ∨
      e ∈ s.cache.entries ∧ e.key ≠ sent.flight.key := by
  obtain ⟨outcome, hstep, -⟩ := hfetches.step_eq
  rw [hstep, State.cache_land] at hmem
  exact mem_keep httl hpos hmem

/-- A leader returns what it takes in if times to live are doubles. -/
theorem Fetches.outcome?_step (httl : search.settings.resultTtl = .int ttl) (hpos : 0 < ttl)
    {double : Float} (hdouble : Decimal.nearest ttl = .ok double)
    (hall : ∀ e ∈ s.cache.entries, e.ttl = ttl) {event : Event} {id : CallId} {sent : Sent}
    {records : List Json} (hfetches : Fetches s event id sent records) :
    (search.step s event).1.outcome? id =
      some (.returned (search.resultOf s.now sent records)) := by
  obtain ⟨outcome, hstep, hreturned⟩ := hfetches.step_eq
  obtain rfl := hreturned (keep_eq_ok httl hpos hdouble hall _ _)
  rcases hkeep : search.keep s sent.flight.key (search.resultOf s.now sent records) with
    ⟨kept, s', log⟩
  have hcall : s'.calls[id]? = some ⟨.leading sent, false⟩ := by
    rw [search.keep_frame s hkeep]
    exact hfetches.called
  rw [hstep, hkeep, State.outcome?, State.phase?_eq_of_calls (State.calls_land _ _ _ _),
    State.phase?_enter_self hcall]

theorem Boards.cache_eq {s' : State} {id : CallId} {flight : Flight}
    (hboards : search.Boards s id flight s') : s'.cache = s.cache := by
  cases hboards <;> rfl

/-- Any other event leaves nothing in the cache but what was there. -/
theorem keeps_step {event : Event} (hwrites : event.writes = false)
    (hother : ∀ id sent records, ¬ Fetches s event id sent records) :
    Cache.Keeps s.cache (search.step s event).1.cache := by
  have hsame : Cache.Keeps s.cache s.cache := .of_subset (List.Subset.refl _)
  have hmove := search.step_move s event
  generalize (search.step s event).1 = s' at hmove
  cases hmove with
  | stay | arrive | ask | advance | quit | refuse | overflow | drop | adopt | fail | garble =>
      exact hsame
  | tell command => exact Cache.step_keeps hwrites
  | hit called asked looked payload => exact Cache.get?_keeps looked
  | miss called asked missed boards =>
      rw [boards.cache_eq]
      cases missed with
      | absent looked => exact Cache.get?_keeps looked
      | thrown looked payload =>
          exact (Cache.get?_keeps looked).trans (Cache.erase_keeps _ _)
  | retry called ended boards =>
      rw [boards.cache_eq]
      exact hsame
  | keep called answered kept => exact absurd ⟨called, _, rfl, answered⟩ (hother _ _ _)
  | lose called answered lost => exact absurd ⟨called, _, rfl, answered⟩ (hother _ _ _)

/-- What stands in the cache behind an event stood there before, counted hits aside, or is what a
leader makes of an answer. -/
theorem mem_step_cases {event : Event} (hwrites : event.writes = false)
    {e : Cache.Entry Float Stored} (hmem : e ∈ (search.step s event).1.cache.entries) :
    (∃ old ∈ s.cache.entries, e = { old with hits := e.hits }) ∨
      ∃ id sent records, Fetches s event id sent records ∧ e.key = sent.flight.key ∧
        e.payload = .result (search.resultOf s.now sent records) := by
  by_cases hfetch : ∃ id sent records, Fetches s event id sent records
  · obtain ⟨id, sent, records, hfetches⟩ := hfetch
    obtain ⟨outcome, hstep, -⟩ : ∃ outcome, _ ∧ _ := hfetches.step_eq
    rw [hstep, State.cache_land] at hmem
    rcases mem_keep_cases hmem with ⟨seconds, -, rfl⟩ | hold
    · exact .inr ⟨id, sent, records, hfetches, rfl, rfl⟩
    · exact .inl ⟨e, hold, rfl⟩
  · exact .inl (keeps_step hwrites (fun id sent records hfetches =>
      hfetch ⟨id, sent, records, hfetches⟩) e hmem)

theorem run_append (search : Search) (start : State) (events later : List Event) :
    search.run start (events ++ later) = search.run (search.run start events) later :=
  List.foldl_append

theorem run_concat (search : Search) (start : State) (events : List Event) (event : Event) :
    search.run start (events ++ [event]) = (search.step (search.run start events) event).1 :=
  search.run_append start events [event]

variable (search) in
/-- The last answer that was stored under a key: which events came before and behind it, and that
none of those behind it was stored under the key. -/
structure LastFetch (start : State) (earlier : List Event) (event : Event) (later : List Event)
    (id : CallId) (sent : Sent) (records : List Json) : Prop where
  fetches : Fetches (search.run start earlier) event id sent records
  latest : ∀ between event' rest, later = between ++ event' :: rest →
    ∀ id' sent' records',
      Fetches (search.run start (earlier ++ event :: between)) event' id' sent' records' →
      sent'.flight.key ≠ sent.flight.key

variable (search) in
/-- Where an entry comes from: the last answer that was stored under its key. -/
inductive Stocked (start : State) (ttl : Int) :
    List Event → Cache.Entry Float Stored → Prop
  | fetched {earlier later : List Event} {event : Event} {id : CallId} {sent : Sent}
      {records : List Json}
      (last : search.LastFetch start earlier event later id sent records) (hits : Nat) :
      Stocked start ttl (earlier ++ event :: later)
        { search.fetchedEntry (search.run start earlier).now ttl sent records with hits }

theorem Stocked.ttl_eq {start : State} {events : List Event} {e : Cache.Entry Float Stored}
    (hstocked : search.Stocked start ttl events e) : e.ttl = ttl := by
  cases hstocked
  rfl

/-- An entry stays the last under its key as long as nothing is stored under the key. -/
theorem Stocked.concat {start : State} {events : List Event} {event : Event}
    {e : Cache.Entry Float Stored} (hstocked : search.Stocked start ttl events e)
    (hother : ∀ id sent records, Fetches (search.run start events) event id sent records →
      sent.flight.key ≠ e.key) : search.Stocked start ttl (events ++ [event]) e := by
  cases hstocked with
  | @fetched earlier later event' id sent records last hits =>
      rw [List.append_assoc, List.cons_append]
      refine .fetched ⟨last.fetches, ?_⟩ hits
      intro between event'' rest hsplit id' sent' records' hfetches
      rcases List.eq_nil_or_concat rest with rfl | ⟨rest, final, rfl⟩
      · obtain ⟨rfl, hlast⟩ := List.append_inj' hsplit rfl
        obtain rfl := List.head_eq_of_cons_eq hlast
        exact hother id' sent' records' hfetches
      · have hshort : later ++ [event] = (between ++ event'' :: rest) ++ [final] := by
          simpa using hsplit
        obtain ⟨hlater, -⟩ := List.append_inj' hshort rfl
        exact last.latest between event'' rest hlater id' sent' records' hfetches

/-- Where nothing but answers is written, every entry is the last answer under its key. -/
theorem run_stocked (httl : search.settings.resultTtl = .int ttl) (hpos : 0 < ttl)
    {start : State} (hempty : start.cache.entries = []) {events : List Event}
    (hwrites : ∀ event ∈ events, event.writes = false) :
    ∀ e ∈ (search.run start events).cache.entries, search.Stocked start ttl events e := by
  induction events using List.reverseRecOn with
  | nil =>
      intro e he
      rw [run, List.foldl_nil, hempty] at he
      cases he
  | append_singleton events event ih =>
      have hrun := ih fun other hother => hwrites other (List.mem_append_left _ hother)
      intro e he
      rw [run_concat] at he
      by_cases hfetch : ∃ id sent records, Fetches (search.run start events) event id sent records
      · obtain ⟨id, sent, records, hfetches⟩ := hfetch
        rcases hfetches.mem_step httl hpos he with rfl | ⟨hold, hkey⟩
        · refine .fetched ⟨hfetches, ?_⟩ 0
          intro between event' rest hsplit
          exact absurd hsplit (by simp)
        · refine (hrun e hold).concat ?_
          intro id' sent' records' hfetches'
          rw [hfetches'.sent_unique hfetches]
          exact hkey.symm
      · have hnone : ∀ id sent records, ¬ Fetches (search.run start events) event id sent records :=
          fun id sent records hfetches => hfetch ⟨id, sent, records, hfetches⟩
        obtain ⟨old, hold, heq⟩ := keeps_step (hwrites event (by simp)) hnone e he
        rw [heq]
        have hstocked := hrun old hold
        cases hstocked with
        | fetched last hits =>
            exact Stocked.concat (.fetched last e.hits) fun id sent records hfetches =>
              absurd hfetches (hnone id sent records)

/-! ### What the backend answers -/

/-- The backend answers every leader by what it is asked for. -/
def Backed (search : Search) (backend : BackendCall → Except Failure Json) :
    State → List Event → Prop
  | _, [] => True
  | s, event :: rest =>
      (∀ id answer sent, event = .reply id answer → s.phase? id = some (.leading sent) →
        answer = backend sent.call) ∧ Backed search backend (search.step s event).1 rest

theorem backed_append_iff {backend : BackendCall → Except Failure Json}
    {earlier later : List Event} : search.Backed backend s (earlier ++ later) ↔
      search.Backed backend s earlier ∧ search.Backed backend (search.run s earlier) later := by
  induction earlier generalizing s with
  | nil => simp [Backed, run]
  | cons event rest ih =>
      rw [List.cons_append, Backed, Backed, ih, and_assoc]
      rfl

/-- What a leader takes in is the backend's answer to its call. -/
theorem Backed.answered {backend : BackendCall → Except Failure Json} {earlier later : List Event}
    {event : Event} (hbacked : search.Backed backend s (earlier ++ event :: later)) {id : CallId}
    {sent : Sent} {records : List Json}
    (hfetches : Fetches (search.run s earlier) event id sent records) :
    ∃ value, backend sent.call = .ok value ∧ recordsOf value = some records := by
  obtain ⟨hcalled, value, rfl, hanswered⟩ := hfetches
  have hanswer := (backed_append_iff.1 hbacked).2.1 id _ sent rfl (State.phase?_of_called hcalled)
  exact ⟨value, hanswer.symm, hanswered⟩

end IssueSearch.Search
