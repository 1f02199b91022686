import IssueSearch.Proofs.Search.Move
import Mathlib.Data.List.Nodup
/-!
Single flight. In every state that a run can reach, a key is in flight exactly when one call leads
it, no key has two leaders, and so at most one backend call is outstanding for a key. A leader that
ends takes its own flight away and no other, and without running calls nothing is in flight.
-/
namespace IssueSearch.Search

namespace State

/-- Whether a call leads the flight of a key: it has registered the flight, and its backend call is
outstanding. -/
def Leads (s : State) (id : CallId) (key : String) : Prop :=
  ∃ sent, s.phase? id = some (.leading sent) ∧ sent.flight.key = key

theorem Leads.key_unique {s : State} {id : CallId} {key other : String}
    (hkey : s.Leads id key) (hother : s.Leads id other) : key = other := by
  obtain ⟨sent, hphase, rfl⟩ := hkey
  obtain ⟨sent', hphase', rfl⟩ := hother
  rw [hphase] at hphase'
  cases hphase'
  rfl

theorem leads_congr {s s' : State} {id : CallId} (hphase : s'.phase? id = s.phase? id)
    (key : String) : s'.Leads id key ↔ s.Leads id key := by
  rw [Leads, Leads, hphase]

theorem not_leads_of_phase? {s : State} {id : CallId} {phase : Phase}
    (hphase : s.phase? id = some phase) (hother : ∀ sent, phase ≠ .leading sent) (key : String) :
    ¬ s.Leads id key := by
  rintro ⟨sent, hlead, -⟩
  rw [hphase] at hlead
  exact hother sent (Option.some.inj hlead)

end State

/-- What a step does to the flights. -/
inductive Shift (s s' : State) : Prop
  /-- All stay as they are. -/
  | keeps (flights : s'.inflight = s.inflight)
      (leads : ∀ id key, s'.Leads id key ↔ s.Leads id key)
  /-- A call that leads nothing takes the lead of a key without flight. -/
  | opens (id : CallId) (key : String) (free : s.inflight.lookup key = none)
      (idle : ∀ key, ¬ s.Leads id key) (flights : s'.inflight = (key, id) :: s.inflight)
      (led : s'.Leads id key)
      (others : ∀ other, other ≠ id → ∀ key, s'.Leads other key ↔ s.Leads other key)
  /-- A leader ends. -/
  | closes (id : CallId) (key : String) (outcome : Outcome) (led : s.Leads id key)
      (flights : s'.inflight = s.inflight.filter (·.1 != key))
      (ended : s'.phase? id = some (.finished outcome))
      (others : ∀ other, other ≠ id → ∀ key, s'.Leads other key ↔ s.Leads other key)

namespace Shift

variable {s s' : State} {id : CallId}

/-- A call that does not lead enters a phase in which it does not lead either. -/
theorem of_enter {phase : Phase} {call : Call} (hcall : s.calls[id]? = some call)
    (hbefore : ∀ sent, call.phase ≠ .leading sent) (hafter : ∀ sent, phase ≠ .leading sent)
    (hcalls : s'.calls = (s.enter id phase).calls) (hflights : s'.inflight = s.inflight) :
    Shift s s' := by
  refine .keeps hflights fun other key => ?_
  by_cases heq : other = id
  · subst heq
    have hold : ¬ s.Leads other key :=
      State.not_leads_of_phase? (State.phase?_of_called hcall) hbefore key
    have hnew : ¬ s'.Leads other key := by
      refine State.not_leads_of_phase? ?_ hafter key
      rw [State.phase?_eq_of_calls hcalls, State.phase?_enter_self hcall]
    exact iff_of_false hnew hold
  · refine State.leads_congr ?_ key
    rw [State.phase?_eq_of_calls hcalls, State.phase?_enter_of_ne heq]

/-- A call that does not lead takes the lead. -/
theorem of_lead {sent : Sent} {call : Call} (hcall : s.calls[id]? = some call)
    (hbefore : ∀ sent, call.phase ≠ .leading sent)
    (hfree : s.inflight.lookup sent.flight.key = none)
    (hcalls : s'.calls = (s.enter id (.leading sent)).calls)
    (hflights : s'.inflight = (sent.flight.key, id) :: s.inflight) : Shift s s' := by
  refine .opens id sent.flight.key hfree ?_ hflights ?_ ?_
  · exact State.not_leads_of_phase? (State.phase?_of_called hcall) hbefore
  · refine ⟨sent, ?_, rfl⟩
    rw [State.phase?_eq_of_calls hcalls, State.phase?_enter_self hcall]
  · intro other hne key
    refine State.leads_congr ?_ key
    rw [State.phase?_eq_of_calls hcalls, State.phase?_enter_of_ne hne]

/-- A leader enters its last phase, and its key is taken out of flight. -/
theorem of_land {sent : Sent} {requested : Bool} {outcome : Outcome}
    (hcall : s.calls[id]? = some ⟨.leading sent, requested⟩)
    (hcalls : s'.calls = (s.enter id (.finished outcome)).calls)
    (hflights : s'.inflight = s.inflight.filter (·.1 != sent.flight.key)) : Shift s s' := by
  refine .closes id sent.flight.key outcome ⟨sent, State.phase?_of_called hcall, rfl⟩
    hflights ?_ ?_
  · rw [State.phase?_eq_of_calls hcalls, State.phase?_enter_self hcall]
  · intro other hne key
    refine State.leads_congr ?_ key
    rw [State.phase?_eq_of_calls hcalls, State.phase?_enter_of_ne hne]

/-- A change of the cache beforehand makes no difference. -/
theorem of_cache {cache : Cache Float Stored} (hshift : Shift { s with cache } s') :
    Shift s s' := by
  cases hshift with
  | keeps flights leads => exact .keeps flights leads
  | opens id key free idle flights led others =>
      exact .opens id key free idle flights led others
  | closes id key outcome led flights ended others =>
      exact .closes id key outcome led flights ended others

end Shift

theorem lookup_eq_none_iff_forall_ne {flights : List (String × CallId)} {key : String} :
    flights.lookup key = none ↔ ∀ flight ∈ flights, flight.1 ≠ key := by
  rw [List.lookup_eq_none_iff]
  constructor
  · intro hall flight hmem
    exact (bne_iff_ne.1 (hall flight hmem)).symm
  · intro hall flight hmem
    exact bne_iff_ne.2 (hall flight hmem).symm

variable {search : Search} {s s' : State}

theorem Boards.shift {id : CallId} {flight : Flight} {call : Call}
    (hboards : search.Boards s id flight s') (hcall : s.calls[id]? = some call)
    (hbefore : ∀ sent, call.phase ≠ .leading sent) : Shift s s' := by
  cases hboards with
  | join found => exact .of_enter hcall hbefore (by simp) rfl rfl
  | lead free valid compiled => exact .of_lead hcall hbefore free rfl rfl
  | refuse free refused =>
      refine .of_enter hcall hbefore (by simp) rfl ?_
      have hothers : s.inflight.filter (·.1 != flight.key) = s.inflight := by
        rw [List.filter_eq_self]
        intro other hmem
        exact bne_iff_ne.2 (lookup_eq_none_iff_forall_ne.1 free other hmem)
      simpa using hothers

theorem leads_arrive_iff (input : Input) (id : CallId) (key : String) :
    State.Leads { s with calls := s.calls ++ [{ phase := .ready input }] } id key ↔
      s.Leads id key := by
  have hphase := s.phase?_arrive { phase := .ready input } id
  by_cases heq : id = s.calls.length
  · have hold : s.phase? id = none := by simp [State.phase?, heq]
    rw [State.Leads, State.Leads, hphase, if_pos heq, hold]
    simp
  · rw [if_neg heq] at hphase
    exact State.leads_congr hphase key

theorem Move.shift {event : Event} (hmove : search.Move s event s') : Shift s s' := by
  cases hmove with
  | stay => exact .keeps rfl fun _ _ => Iff.rfl
  | arrive input => exact .keeps rfl (leads_arrive_iff input)
  | ask id => exact .keeps rfl fun other => State.leads_congr (s.phase?_cancel id other)
  | advance seconds => exact .keeps rfl fun _ _ => Iff.rfl
  | tell command => exact .keeps rfl fun _ _ => Iff.rfl
  | quit called waiting unended => exact .of_enter called waiting (by simp) rfl rfl
  | refuse called asked => exact .of_enter called (by simp) (by simp) rfl rfl
  | overflow called asked looked => exact .of_enter called (by simp) (by simp) rfl rfl
  | hit called asked looked payload => exact .of_enter called (by simp) (by simp) rfl rfl
  | miss called asked missed boards => exact .of_cache (boards.shift called (by simp))
  | drop called => exact .of_land called rfl rfl
  | adopt called ended uncancelled => exact .of_enter called (by simp) (by simp) rfl rfl
  | retry called ended boards => exact boards.shift called (by simp)
  | fail called => exact .of_land called rfl rfl
  | garble called answered => exact .of_land called rfl rfl
  | keep called answered kept =>
      rw [search.keep_frame s kept]
      exact .of_land called rfl rfl
  | lose called answered lost =>
      rw [search.keep_frame s lost]
      exact .of_land called rfl rfl

/-- The invariant of single flight: every key is registered once at most, and the registered call
is the one that leads the key. -/
structure State.SingleFlight (s : State) : Prop where
  keys_nodup : (s.inflight.map Prod.fst).Nodup
  mem_iff : ∀ key id, (key, id) ∈ s.inflight ↔ s.Leads id key

theorem State.SingleFlight.leader_unique (h : s.SingleFlight) {id other : CallId} {key : String}
    (hid : s.Leads id key) (hother : s.Leads other key) : id = other := by
  have heq : (key, id) = (key, other) :=
    List.inj_on_of_nodup_map h.keys_nodup ((h.mem_iff key id).2 hid)
      ((h.mem_iff key other).2 hother) rfl
  exact (Prod.mk.inj heq).2

theorem Shift.singleFlight (hshift : Shift s s') (h : s.SingleFlight) : s'.SingleFlight := by
  cases hshift with
  | keeps flights leads =>
      refine ⟨flights ▸ h.keys_nodup, fun key id => ?_⟩
      rw [flights, h.mem_iff, leads]
  | opens id key free idle flights led others =>
      have hfresh : ∀ flight ∈ s.inflight, flight.1 ≠ key :=
        lookup_eq_none_iff_forall_ne.1 free
      constructor
      · rw [flights, List.map_cons, List.nodup_cons]
        refine ⟨?_, h.keys_nodup⟩
        rw [List.mem_map]
        rintro ⟨flight, hmem, heq⟩
        exact hfresh flight hmem heq
      · intro key' id'
        rw [flights, List.mem_cons, Prod.mk.injEq]
        by_cases hid : id' = id
        · subst hid
          constructor
          · rintro (⟨rfl, -⟩ | hmem)
            · exact led
            · exact absurd ((h.mem_iff key' id').1 hmem) (idle key')
          · intro hleads
            exact Or.inl ⟨hleads.key_unique led, rfl⟩
        · rw [others id' hid, h.mem_iff]
          simp [hid]
  | closes id key outcome led flights ended others =>
      constructor
      · rw [flights]
        exact h.keys_nodup.sublist (List.filter_sublist.map Prod.fst)
      · intro key' id'
        rw [flights, List.mem_filter, h.mem_iff, bne_iff_ne]
        by_cases hid : id' = id
        · subst hid
          have hdone : ¬ s'.Leads id' key' :=
            State.not_leads_of_phase? ended (by simp) key'
          refine iff_of_false ?_ hdone
          rintro ⟨hleads, hne⟩
          exact hne (hleads.key_unique led)
        · rw [others id' hid]
          refine ⟨And.left, fun hleads => ⟨hleads, ?_⟩⟩
          rintro rfl
          exact hid (h.leader_unique hleads led)

theorem State.singleFlight_of_idle (hnew : s.calls = []) (hidle : s.inflight = []) :
    s.SingleFlight where
  keys_nodup := by
    rw [hidle]
    exact List.nodup_nil
  mem_iff key id := by simp [hnew, hidle, Leads, phase?]

theorem run_singleFlight (events : List Event) (h : s.SingleFlight) :
    (search.run s events).SingleFlight := by
  induction events generalizing s with
  | nil => exact h
  | cons event rest ih => exact ih ((search.step_move s event).shift.singleFlight h)

/-- Whether a call has begun and not ended. -/
def Phase.isRunning : Phase → Bool
  | .leading _ | .following _ _ => true
  | .ready _ | .finished _ => false

/-- What single flight promises of a state and of every step from it. -/
structure State.FlightsExact (search : Search) (s : State) : Prop where
  /-- No key has two backend calls outstanding. -/
  leader_unique : ∀ key id other, s.Leads id key → s.Leads other key → id = other
  /-- A key is in flight exactly when exactly one call leads it. -/
  inflight_iff : ∀ key, key ∈ s.inflight.map Prod.fst ↔ ∃! id, s.Leads id key
  /-- The registered leader is the one that leads, and no key is registered twice. -/
  lookup_iff : ∀ key id, s.inflight.lookup key = some id ↔ s.Leads id key
  keys_nodup : (s.inflight.map Prod.fst).Nodup
  /-- A leader that ends takes away its own flight and no other. -/
  land_own : ∀ event key id, s.Leads id key → ((search.step s event).1.outcome? id).isSome →
    ∀ flight, flight ∈ (search.step s event).1.inflight ↔
      flight ∈ s.inflight ∧ flight ≠ (key, id)
  /-- No flight is taken away but by the end of its leader. -/
  landed : ∀ event key id, (key, id) ∈ s.inflight →
    (key, id) ∉ (search.step s event).1.inflight →
      s.Leads id key ∧ ((search.step s event).1.outcome? id).isSome
  /-- Without running calls nothing is in flight. -/
  idle : (∀ call ∈ s.calls, call.phase.isRunning = false) → s.inflight = []

theorem State.outcome?_eq_none_of_leads {id : CallId} {key : String} (hleads : s.Leads id key) :
    s.outcome? id = none := by
  obtain ⟨sent, hphase, -⟩ := hleads
  rw [State.outcome?, hphase]

theorem State.SingleFlight.lookup_iff (h : s.SingleFlight) (key : String) (id : CallId) :
    s.inflight.lookup key = some id ↔ s.Leads id key := by
  rw [← h.mem_iff]
  constructor
  · intro hlookup
    obtain ⟨before, after, heq, -⟩ := List.lookup_eq_some_iff.1 hlookup
    rw [heq]
    exact List.mem_append_right before List.mem_cons_self
  · intro hmem
    cases hlookup : s.inflight.lookup key with
    | none => exact absurd rfl (lookup_eq_none_iff_forall_ne.1 hlookup _ hmem)
    | some other =>
        obtain ⟨before, after, heq, -⟩ := List.lookup_eq_some_iff.1 hlookup
        have hother : (key, other) ∈ s.inflight := by
          rw [heq]
          exact List.mem_append_right before List.mem_cons_self
        rw [h.leader_unique ((h.mem_iff key id).1 hmem) ((h.mem_iff key other).1 hother)]

theorem State.SingleFlight.inflight_iff (h : s.SingleFlight) (key : String) :
    key ∈ s.inflight.map Prod.fst ↔ ∃! id, s.Leads id key := by
  rw [List.mem_map]
  constructor
  · rintro ⟨⟨key, id⟩, hmem, rfl⟩
    have hleads := (h.mem_iff key id).1 hmem
    exact ⟨id, hleads, fun other hother => h.leader_unique hother hleads⟩
  · rintro ⟨id, hleads, -⟩
    exact ⟨(key, id), (h.mem_iff key id).2 hleads, rfl⟩

theorem State.SingleFlight.idle (h : s.SingleFlight)
    (hidle : ∀ call ∈ s.calls, call.phase.isRunning = false) : s.inflight = [] := by
  apply List.eq_nil_iff_forall_not_mem.2
  rintro ⟨key, id⟩ hmem
  obtain ⟨sent, hphase, -⟩ := (h.mem_iff key id).1 hmem
  rw [State.phase?, Option.map_eq_some_iff] at hphase
  obtain ⟨call, hcall, hleading⟩ := hphase
  have hstill := hidle call (List.mem_of_getElem? hcall)
  rw [hleading] at hstill
  cases hstill

/-- The leader of a flight that a step takes away ends in that step. -/
theorem Shift.landed (hshift : Shift s s') (h : s.SingleFlight) {key : String} {id : CallId}
    (hmem : (key, id) ∈ s.inflight) (hgone : (key, id) ∉ s'.inflight) :
    s.Leads id key ∧ (s'.outcome? id).isSome := by
  have hleads := (h.mem_iff key id).1 hmem
  refine ⟨hleads, ?_⟩
  cases hshift with
  | keeps flights leads => exact absurd (flights ▸ hmem) hgone
  | opens id' key' free idle flights led others =>
      exact absurd (flights ▸ List.mem_cons_of_mem _ hmem) hgone
  | closes id' key' outcome led flights ended others =>
      rw [flights, List.mem_filter, bne_iff_ne] at hgone
      have hkey : key = key' := by
        by_contra hne
        exact hgone ⟨hmem, hne⟩
      subst hkey
      rw [h.leader_unique hleads led, State.outcome?, ended]
      rfl

/-- A leader that ends in a step takes its own flight away and no other. -/
theorem Shift.land_own (hshift : Shift s s') (h : s.SingleFlight) {key : String} {id : CallId}
    (hleads : s.Leads id key) (hended : (s'.outcome? id).isSome) (flight : String × CallId) :
    flight ∈ s'.inflight ↔ flight ∈ s.inflight ∧ flight ≠ (key, id) := by
  have hnot : ¬ s'.Leads id key := by
    intro hstill
    rw [State.outcome?_eq_none_of_leads hstill] at hended
    cases hended
  cases hshift with
  | keeps flights leads => exact absurd ((leads id key).2 hleads) hnot
  | opens id' key' free idle flights led others =>
      by_cases hid : id = id'
      · exact absurd (hid ▸ hleads) (idle key)
      · exact absurd ((others id hid key).2 hleads) hnot
  | closes id' key' outcome led flights ended others =>
      by_cases hid : id = id'
      · subst hid
        obtain rfl := hleads.key_unique led
        obtain ⟨key', id'⟩ := flight
        rw [flights, List.mem_filter, bne_iff_ne]
        refine and_congr_right fun hmem => not_congr ⟨?_, fun heq => (Prod.mk.inj heq).1⟩
        rintro rfl
        rw [h.leader_unique ((h.mem_iff _ id').1 hmem) hleads]
      · exact absurd ((others id hid key).2 hleads) hnot

/-- Whatever the order in which calls arrive, go on, are answered and are asked to end, and
whatever is told to the cache in between, flights are exact in every state that is reached. -/
theorem run_flightsExact (search : Search) (cache : Cache Float Stored)
    (monitor : Option Monitor) (metrics : Option Metrics) (now : Float) (events : List Event) :
    (search.run (State.start cache monitor metrics now) events).FlightsExact search := by
  have h : (search.run (State.start cache monitor metrics now) events).SingleFlight :=
    run_singleFlight events (State.singleFlight_of_idle rfl rfl)
  exact {
    leader_unique := fun key id other => h.leader_unique
    inflight_iff := h.inflight_iff
    lookup_iff := h.lookup_iff
    keys_nodup := h.keys_nodup
    land_own := fun event key id hleads hended =>
      (search.step_move _ event).shift.land_own h hleads hended
    landed := fun event key id => (search.step_move _ event).shift.landed h
    idle := h.idle }

end IssueSearch.Search
