import IssueSearch.Proofs.Search.Move
/-!
What a step does to one call. A call keeps its phase, or it takes one of the turns listed by `Turn`,
each with what it rests on: the flight that it brings, the leader that it joins, the entry that it
finds or the answer that it takes in.
-/
namespace IssueSearch.Search

variable (search : Search)

/-- The flight that a call brings when it boards: a new one, or that of a cancelled leader. -/
inductive Brings (s : State) (id : CallId) : Flight → Prop
  | fresh {input : Input} {r : Request} (called : s.calls[id]? = some ⟨.ready input, false⟩)
      (asked : search.requestOf input = .ok r) : Brings s id (search.flightOf r s.now)
  | again {flight : Flight} {leader : CallId}
      (called : s.calls[id]? = some ⟨.following flight leader, false⟩)
      (ended : s.outcome? leader = some .cancelled) : Brings s id flight

/-- The ways in which a call comes into another phase. -/
inductive Turn (s : State) : Event → CallId → Phase → Prop
  | arrive (input : Input) : Turn s (.arrive input) s.calls.length (.ready input)
  | cancel {event : Event} {id : CallId} : Turn s event id (.finished .cancelled)
  | raise {event : Event} {id : CallId} (error : SearchError) :
      Turn s event id (.finished (.raised error))
  | hit {id : CallId} {input : Input} {r : Request} {entry : Cache.Entry Float Stored}
      {stored : SearchResult} {left : Cache Float Stored}
      (called : s.calls[id]? = some ⟨.ready input, false⟩)
      (asked : search.requestOf input = .ok r)
      (looked : s.cache.get? s.now (search.key r) = .ok (some entry, left))
      (payload : entry.payload = .result stored) :
      Turn s (.resume id) id (.finished (.returned (stored.fromCache r)))
  | follow {id leader : CallId} {flight : Flight} (brings : search.Brings s id flight)
      (found : s.inflight.lookup flight.key = some leader) :
      Turn s (.resume id) id (.following flight leader)
  | lead {id : CallId} {flight : Flight} {query : Query} (brings : search.Brings s id flight)
      (valid : (Validation.ofRequest search.checks flight.request).valid = true)
      (compiled : Query.ofRequest search.grammar flight.request = .ok query) :
      Turn s (.resume id) id (.leading {
        flight, query
        call := search.backendCall flight.request query
        warnings := (Validation.ofRequest search.checks flight.request).warnings ++ query.warnings
        sentAt := s.now })
  | adopt {id leader : CallId} {flight : Flight} {outcome : Outcome}
      (called : s.calls[id]? = some ⟨.following flight leader, false⟩)
      (ended : s.outcome? leader = some outcome) (uncancelled : outcome ≠ .cancelled) :
      Turn s (.resume id) id (.finished outcome)
  | fetch {id : CallId} {sent : Sent} {value : Json} {records : List Json}
      (called : s.calls[id]? = some ⟨.leading sent, false⟩)
      (answered : recordsOf value = some records) :
      Turn s (.reply id (.ok value)) id
        (.finished (.returned (search.resultOf s.now sent records)))

variable {search : Search} {s s' : State}

/-- A call that enters a phase takes a turn if that phase is one, and no other call does. -/
theorem Turn.of_enter {event : Event} {id other : CallId} {entered phase : Phase}
    (hturn : search.Turn s event id entered) (hcalls : s'.calls = (s.enter id entered).calls)
    (hphase : s'.phase? other = some phase) :
    s.phase? other = some phase ∨ search.Turn s event other phase := by
  rw [State.phase?_eq_of_calls hcalls] at hphase
  by_cases hother : other = id
  · subst hother
    simp only [State.phase?, State.enter, List.getElem?_modify_eq, Option.map_eq_map,
      Option.map_eq_some_iff] at hphase
    obtain ⟨_, ⟨_, -, rfl⟩, rfl⟩ := hphase
    exact .inr hturn
  · rw [State.phase?_enter_of_ne hother] at hphase
    exact .inl hphase

theorem Boards.turn {id other : CallId} {flight : Flight} {phase : Phase}
    (cache : Cache Float Stored) (hbrings : search.Brings s id flight)
    (hboards : search.Boards { s with cache } id flight s')
    (hphase : s'.phase? other = some phase) :
    s.phase? other = some phase ∨ search.Turn s (.resume id) other phase := by
  cases hboards with
  | join found => exact Turn.of_enter (.follow hbrings found) rfl hphase
  | lead free valid compiled => exact Turn.of_enter (.lead hbrings valid compiled) rfl hphase
  | refuse free refused => exact Turn.of_enter (.raise _) rfl hphase

/-- A call keeps its phase or takes one of the turns. -/
theorem Move.turn {event : Event} (hmove : search.Move s event s') {id : CallId} {phase : Phase}
    (hphase : s'.phase? id = some phase) :
    s.phase? id = some phase ∨ search.Turn s event id phase := by
  cases hmove with
  | stay => exact .inl hphase
  | arrive input =>
      rw [State.phase?_arrive] at hphase
      split at hphase
      · rename_i heq
        subst heq
        cases hphase
        exact .inr (.arrive input)
      · exact .inl hphase
  | ask asked =>
      rw [State.phase?_cancel] at hphase
      exact .inl hphase
  | advance seconds => exact .inl hphase
  | tell command => exact .inl hphase
  | quit called waiting unended => exact Turn.of_enter .cancel rfl hphase
  | refuse called asked => exact Turn.of_enter (.raise _) rfl hphase
  | overflow called asked looked => exact Turn.of_enter (.raise _) rfl hphase
  | hit called asked looked payload =>
      exact Turn.of_enter (.hit called asked looked payload) rfl hphase
  | miss called asked missed boards => exact boards.turn _ (.fresh called asked) hphase
  | drop called => exact Turn.of_enter .cancel rfl hphase
  | adopt called ended uncancelled =>
      exact Turn.of_enter (.adopt called ended uncancelled) rfl hphase
  | retry called ended boards => exact boards.turn s.cache (.again called ended) hphase
  | fail called => exact Turn.of_enter (.raise _) rfl hphase
  | garble called answered => exact Turn.of_enter (.raise _) rfl hphase
  | keep called answered kept =>
      rw [search.keep_frame s kept] at hphase
      exact Turn.of_enter (.fetch called answered) rfl hphase
  | lose called answered lost =>
      rw [search.keep_frame s lost] at hphase
      exact Turn.of_enter (.raise _) rfl hphase

theorem Boards.calls_length {id : CallId} {flight : Flight}
    (hboards : search.Boards s id flight s') :
    s'.calls.length = s.calls.length := by
  cases hboards <;> simp [State.enter]

theorem Move.calls_length {event : Event} (hmove : search.Move s event s') :
    s.calls.length ≤ s'.calls.length := by
  cases hmove with
  | stay | tell | advance => exact Nat.le_refl _
  | arrive => simp
  | ask => simp [State.cancel]
  | miss called asked missed boards => exact Nat.le_of_eq boards.calls_length.symm
  | retry called ended boards => exact Nat.le_of_eq boards.calls_length.symm
  | keep called answered kept =>
      rw [search.keep_frame s kept]
      simp [State.enter]
  | lose called answered lost =>
      rw [search.keep_frame s lost]
      simp [State.enter]
  | quit | refuse | overflow | hit | drop | adopt | fail | garble => simp [State.enter]

/-- Calls stay. -/
theorem Move.phase?_isSome {event : Event} (hmove : search.Move s event s') {id : CallId}
    {phase : Phase} (hphase : s.phase? id = some phase) : ∃ phase', s'.phase? id = some phase' := by
  rw [State.phase?, Option.map_eq_some_iff] at hphase
  obtain ⟨call, hcall, -⟩ := hphase
  obtain ⟨hlt, -⟩ := List.getElem?_eq_some_iff.1 hcall
  have hlt' : id < s'.calls.length := Nat.lt_of_lt_of_le hlt hmove.calls_length
  exact ⟨_, by rw [State.phase?, List.getElem?_eq_getElem hlt']; rfl⟩

end IssueSearch.Search
