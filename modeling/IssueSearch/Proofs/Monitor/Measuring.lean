import IssueSearch.Monitor.Watch
import IssueSearch.Proofs.Monitor.Selections
/-!
What the calls of a monitor come to, in whatever order they end. `Moves` lists what can happen,
together with the measurement that it adds. Each call ends as its function does and adds one
measurement then, which counts as a success if the function returned and as a failure if it raised.
-/
namespace IssueSearch.Monitor.Watch

variable {α : Type}

/-- A measurement that was added. One that was not tracked directly is of a call, and comes with
what the function of the call came to. -/
structure Report (α : Type) where
  measurement : Measurement
  source : Option (CallId × Result α)

def Report.call? (r : Report α) : Option CallId := r.source.map Prod.fst

/-- The measurement that an event adds. -/
def report? (w : Watch α) (now : Float) : Event α → Option (Report α)
  | .measure _ _ => none
  | .back id result =>
      match w.calls[id]? with
      | some ⟨operation, cached, .awaiting start⟩ =>
          some {
            measurement := {
              operation
              duration := .float ((now - start) * 1000.0)
              success := result.ending != .raised
              cached }
            source := some (id, result) }
      | _ => none
  | .track x => some ⟨x, none⟩

/-- The measurements that events add in turn. -/
def reports (w : Watch α) : List (Float × Event α) → List (Report α)
  | [] => []
  | (now, event) :: rest => (w.report? now event).toList ++ (w.step now event).1.reports rest

theorem run_concat (w : Watch α) (events : List (Float × Event α)) (event : Float × Event α) :
    w.run (events ++ [event]) = ((w.run events).step event.1 event.2).1 := by
  rw [run, List.foldl_append]
  rfl

theorem reports_concat (w : Watch α) (events : List (Float × Event α))
    (event : Float × Event α) : w.reports (events ++ [event]) =
      w.reports events ++ ((w.run events).report? event.1 event.2).toList := by
  induction events generalizing w with
  | nil => simp [reports, run]
  | cons first rest ih =>
      rw [List.cons_append, reports, reports, ih, List.append_assoc]
      rfl

/-- What can happen at one reading of the clock, the measurement that it adds, and the watch that it
leaves. -/
inductive Moves (w : Watch α) (now : Float) : Event α → Option (Report α) → Watch α → Prop
  | measure {operation : String} {cached : Bool} :
      Moves w now (.measure operation cached) none
        { w with calls := w.calls ++ [⟨operation, cached, .awaiting now⟩] }
  | finish {id : CallId} {result : Result α} {operation : String} {cached : Bool} {start : Float}
      {x : Measurement} (waiting : w.calls[id]? = some ⟨operation, cached, .awaiting start⟩)
      (taken : x = {
        operation
        duration := .float ((now - start) * 1000.0)
        success := result.ending != .raised
        cached }) :
      Moves w now (.back id result) (some ⟨x, some (id, result)⟩)
        { monitor := w.monitor.keep x
          calls := w.calls.modify id fun call => { call with phase := .ended result } }
  | stray {id : CallId} {result : Result α} (idle : ∀ operation cached start,
      w.calls[id]? ≠ some ⟨operation, cached, .awaiting start⟩) :
      Moves w now (.back id result) none w
  | track {x : Measurement} :
      Moves w now (.track x) (some ⟨x, none⟩) { w with monitor := w.monitor.keep x }

theorem step_moves (w : Watch α) (now : Float) (event : Event α) :
    Moves w now event (w.report? now event) (w.step now event).1 := by
  cases event with
  | measure operation cached => exact .measure
  | back id result =>
      simp only [step, report?]
      rcases hcall : w.calls[id]? with _ | ⟨operation, cached, start | ended⟩
      · exact .stray (by simp [hcall])
      · exact .finish hcall rfl
      · exact .stray (by simp [hcall])
  | track x => exact .track

/-! ### The window -/

theorem Moves.window {w left : Watch α} {now : Float} {event : Event α} {new : Option (Report α)}
    (hmoves : Moves w now event new left) : left.monitor.capacity = w.monitor.capacity ∧
      ∀ {xs : List Measurement}, w.monitor.window = w.monitor.lastOf xs →
        left.monitor.window = w.monitor.lastOf (xs ++ new.toList.map Report.measurement) := by
  have hkept (x : Measurement) {xs : List Measurement}
      (hwindow : w.monitor.window = w.monitor.lastOf xs) :
      (w.monitor.keep x).window = w.monitor.lastOf (xs ++ [x]) := by
    rw [window_keep, hwindow, lastOf_lastOf_append]
  cases hmoves with
  | measure | stray idle =>
      refine ⟨rfl, fun {xs} hwindow => ?_⟩
      rw [Option.toList_none, List.map_nil, List.append_nil]
      exact hwindow
  | finish waiting taken => exact ⟨capacity_keep _ _, hkept _⟩
  | track => exact ⟨capacity_keep _ _, hkept _⟩

/-- The window holds the last of the measurements that were added. -/
theorem run_window (start : Watch α) (hempty : start.monitor.window = [])
    (events : List (Float × Event α)) :
    (start.run events).monitor.capacity = start.monitor.capacity ∧
      (start.run events).monitor.window =
        start.monitor.lastOf ((start.reports events).map Report.measurement) := by
  induction events using List.reverseRecOn with
  | nil =>
      refine ⟨rfl, hempty.trans ?_⟩
      exact (List.sublist_nil.1 (lastOf_sublist start.monitor [])).symm
  | append_singleton events event ih =>
      obtain ⟨hcapacity, hwindow⟩ := ih
      obtain ⟨hsame, hnext⟩ := (step_moves (start.run events) event.1 event.2).window
      simp only [lastOf_congr hcapacity] at hnext
      rw [run_concat, reports_concat, List.map_append]
      exact ⟨hsame.trans hcapacity, hnext hwindow⟩

/-! ### What becomes of a call -/

/-- What has become of a call, by the measurements that were added on its behalf. It waits until the
first news of its function after it came in. -/
inductive Explained (start : Watch α) (events : List (Float × Event α)) (id : CallId) :
    List (Report α) → Call α → Prop
  | awaiting {operation : String} {cached : Bool} {since : Float}
      {earlier later : List (Float × Event α)}
      (came : events = earlier ++ (since, .measure operation cached) :: later)
      (numbered : (start.run earlier).calls.length = id)
      (unanswered : ∀ time result, (time, .back id result) ∉ later) :
      Explained start events id [] ⟨operation, cached, .awaiting since⟩
  | ended {operation : String} {cached success : Bool} {since now : Float} {result : Result α}
      {earlier between later : List (Float × Event α)}
      (came : events = earlier ++ (since, .measure operation cached) :: between ++
        (now, .back id result) :: later)
      (numbered : (start.run earlier).calls.length = id)
      (unanswered : ∀ time result, (time, .back id result) ∉ between)
      (told : result.ending ≠ .cancelled → (success = true ↔ result.ending = .returned)) :
      Explained start events id
        [⟨⟨operation, .float ((now - since) * 1000.0), success, cached⟩, some (id, result)⟩]
        ⟨operation, cached, .ended result⟩

/-- All calls are explained, and no measurement is of a call that has not come in. -/
structure Settled (start : Watch α) (events : List (Float × Event α)) (calls : List (Call α))
    (history : List (Report α)) : Prop where
  explained : ∀ id call, calls[id]? = some call →
    Explained start events id (history.filter (·.call? == some id)) call
  known : ∀ r ∈ history, ∀ id, r.call? = some id → id < calls.length

section Settled

variable {start : Watch α} {events : List (Float × Event α)} {calls : List (Call α)}
  {history : List (Report α)}

/-- A call that an event is no news for stays as it is. -/
theorem Explained.concat {id : CallId} {added : List (Report α)} {call : Call α}
    (hexplained : Explained start events id added call) {event : Float × Event α}
    (hother : (∃ since, call.phase = .awaiting since) → ∀ result, event.2 ≠ .back id result) :
    Explained start (events ++ [event]) id added call := by
  cases hexplained with
  | @awaiting operation cached since earlier later came numbered unanswered =>
      have hcame : events ++ [event] =
          earlier ++ (since, .measure operation cached) :: (later ++ [event]) := by simp [came]
      refine .awaiting hcame numbered fun time result hmem => ?_
      rcases List.mem_append.1 hmem with hmem | hmem
      · exact unanswered time result hmem
      · exact hother ⟨since, rfl⟩ result (congrArg Prod.snd (List.mem_singleton.1 hmem)).symm
  | @ended operation cached success since now result earlier between later came numbered unanswered
      told =>
      have hcame : events ++ [event] = earlier ++ (since, .measure operation cached) :: between ++
          (now, .back id result) :: (later ++ [event]) := by simp [came]
      exact .ended hcame numbered unanswered told

/-- Events that are no news for a waiting call, and measurements that are of no call, leave all
calls as they are. -/
theorem Settled.concat (hsettled : Settled start events calls history) {event : Float × Event α}
    {new : List (Report α)} (hnew : ∀ r ∈ new, r.call? = none)
    (hother : ∀ id call, calls[id]? = some call → (∃ since, call.phase = .awaiting since) →
      ∀ result, event.2 ≠ .back id result) :
    Settled start (events ++ [event]) calls (history ++ new) := by
  constructor
  · intro id call hcall
    have hnone : new.filter (·.call? == some id) = [] := by
      refine List.filter_eq_nil_iff.2 fun r hr => ?_
      rw [hnew r hr]
      exact Bool.false_ne_true
    rw [List.filter_append, hnone, List.append_nil]
    exact (hsettled.explained id call hcall).concat (hother id call hcall)
  · intro r hr id hid
    rcases List.mem_append.1 hr with hr | hr
    · exact hsettled.known r hr id hid
    · rw [hnew r hr] at hid
      cases hid

/-- A call that comes in leaves the others as they are. -/
theorem Settled.measure (hsettled : Settled start events calls history)
    (hcalls : (start.run events).calls = calls) (now : Float) (operation : String)
    (cached : Bool) :
    Settled start (events ++ [(now, .measure operation cached)])
      (calls ++ [⟨operation, cached, .awaiting now⟩]) history := by
  constructor
  · intro id call hcall
    rcases Nat.lt_trichotomy id calls.length with hlt | rfl | hgt
    · rw [List.getElem?_append_left hlt] at hcall
      exact (hsettled.explained id call hcall).concat (by simp)
    · rw [List.getElem?_concat_length] at hcall
      cases hcall
      have hnone : history.filter (·.call? == some calls.length) = [] := by
        refine List.filter_eq_nil_iff.2 fun r hr hid => ?_
        exact Nat.lt_irrefl _ (hsettled.known r hr _ (beq_iff_eq.1 hid))
      rw [hnone]
      exact .awaiting rfl (congrArg List.length hcalls) (by simp)
    · rw [List.getElem?_eq_none (by simpa using Nat.succ_le_of_lt hgt)] at hcall
      cases hcall
  · intro r hr id hid
    rw [List.length_append]
    exact Nat.lt_add_right _ (hsettled.known r hr id hid)

/-- A call that ends leaves the others as they are. -/
theorem Settled.finish (hsettled : Settled start events calls history) {id : CallId}
    {result : Result α} {operation : String} {cached success : Bool} {since now : Float}
    (hwaiting : calls[id]? = some ⟨operation, cached, .awaiting since⟩)
    (htold : result.ending ≠ .cancelled → (success = true ↔ result.ending = .returned)) :
    Settled start (events ++ [(now, .back id result)])
      (calls.modify id fun call => { call with phase := .ended result })
      (history ++
        [⟨⟨operation, .float ((now - since) * 1000.0), success, cached⟩, some (id, result)⟩]) := by
  constructor
  · intro other call hcall
    rw [List.getElem?_modify] at hcall
    rw [List.filter_append]
    by_cases hid : id = other
    · subst hid
      obtain rfl : ⟨operation, cached, .ended result⟩ = call := by simpa [hwaiting] using hcall
      have hexplained := hsettled.explained id _ hwaiting
      generalize hadded : history.filter (·.call? == some id) = added at hexplained
      cases hexplained with
      | @awaiting _ _ _ earlier later came numbered unanswered =>
          have hcame : events ++ [(now, .back id result)] =
              earlier ++ (since, .measure operation cached) :: later ++
                [(now, .back id result)] := by simp [came]
          have hone : [(⟨⟨operation, .float ((now - since) * 1000.0), success, cached⟩,
              some (id, result)⟩ : Report α)].filter (·.call? == some id) = [_] :=
            List.filter_cons_of_pos (beq_self_eq_true _)
          rw [hone, List.nil_append]
          exact .ended hcame numbered unanswered htold
    · have hnone : [(⟨⟨operation, .float ((now - since) * 1000.0), success, cached⟩,
          some (id, result)⟩ : Report α)].filter (·.call? == some other) = [] :=
        List.filter_cons_of_neg (by simpa [Report.call?] using hid)
      rw [hnone, List.append_nil]
      have hother := hsettled.explained other call (by simpa [hid] using hcall)
      refine hother.concat fun _ result' heq => ?_
      cases heq
      exact hid rfl
  · intro r hr other hother
    rw [List.length_modify]
    rcases List.mem_append.1 hr with hr | hr
    · exact hsettled.known r hr other hother
    · rw [List.mem_singleton.1 hr] at hother
      cases hother
      exact (List.getElem?_eq_some_iff.1 hwaiting).1

/-- Only what raised counts as failed, so of what was not cancelled only what returned counts as a
success. -/
theorem success_iff {result : Result α} (hended : result.ending ≠ .cancelled) :
    (result.ending != .raised) = true ↔ result.ending = .returned := by
  cases result with
  | returned value => exact ⟨fun _ => rfl, fun _ => rfl⟩
  | raised failure => exact ⟨nofun, nofun⟩
  | cancelled => exact absurd rfl hended

theorem run_settled (monitor : Monitor) (events : List (Float × Event α)) :
    let start : Watch α := { monitor }
    Settled start events (start.run events).calls (start.reports events) := by
  intro start
  induction events using List.reverseRecOn with
  | nil => exact ⟨nofun, nofun⟩
  | append_singleton events event ih =>
      have hmoves := step_moves (start.run events) event.1 event.2
      rw [run_concat, reports_concat]
      generalize (start.run events).report? event.1 event.2 = new at hmoves
      generalize ((start.run events).step event.1 event.2).1 = left at hmoves
      obtain ⟨now, event⟩ := event
      cases hmoves with
      | @measure operation cached =>
          rw [Option.toList_none, List.append_nil]
          exact ih.measure rfl now operation cached
      | finish waiting taken => exact taken ▸ ih.finish waiting success_iff
      | stray idle =>
          refine ih.concat nofun fun id call hcall ⟨since, hphase⟩ result heq => ?_
          cases heq
          obtain ⟨operation, cached, phase⟩ := call
          cases hphase
          exact idle _ _ _ hcall
      | track => exact ih.concat (by simp [Report.call?]) nofun

/-- A measurement of a call is a double, and a success if the function of the call returned. -/
theorem Settled.of_call (hsettled : Settled start events calls history) {r : Report α}
    (hr : r ∈ history) {id : CallId} {result : Result α} (hsource : r.source = some (id, result)) :
    (∃ duration, r.measurement.duration = .float duration) ∧
      (result.ending ≠ .cancelled →
        (r.measurement.success = true ↔ result.ending = .returned)) := by
  have hcall : r.call? = some id := by rw [Report.call?, hsource]; rfl
  have hlt := hsettled.known r hr id hcall
  have hadded : r ∈ history.filter (·.call? == some id) :=
    List.mem_filter.2 ⟨hr, beq_iff_eq.2 hcall⟩
  have hexplained := hsettled.explained id _ (List.getElem?_eq_getElem hlt)
  generalize history.filter (·.call? == some id) = added at hadded hexplained
  generalize calls[id] = call at hexplained
  cases hexplained with
  | awaiting came numbered unanswered => cases hadded
  | ended came numbered unanswered told =>
      obtain rfl := List.mem_singleton.1 hadded
      cases hsource
      exact ⟨⟨_, rfl⟩, told⟩

end Settled

/-- The measurement that an event tracks directly. -/
def Event.tracked? : Event α → Option Measurement
  | .track x => some x
  | _ => none

/-- Measurements that are of no call are those that were tracked directly. -/
theorem run_tracked (start : Watch α) (events : List (Float × Event α)) :
    ((start.reports events).filter (·.call? == none)).map Report.measurement =
      events.filterMap (·.2.tracked?) := by
  induction events using List.reverseRecOn with
  | nil => rfl
  | append_singleton events event ih =>
      have hmoves := step_moves (start.run events) event.1 event.2
      rw [reports_concat, List.filter_append, List.map_append, ih, List.filterMap_append]
      generalize (start.run events).report? event.1 event.2 = new at hmoves
      generalize ((start.run events).step event.1 event.2).1 = left at hmoves
      obtain ⟨now, event⟩ := event
      cases hmoves with
      | measure | finish waiting taken | stray idle | track => rfl

/-! ### Shares -/

/-- A report is on an operation, if one is asked for. -/
def Report.concerns (operation : Option String) (r : Report α) : Bool :=
  match operation with
  | none => true
  | some name => r.measurement.operation == name

/-- A report is on a function that returned or raised. -/
def Report.Completed (r : Report α) : Prop :=
  ∃ id result, r.source = some (id, result) ∧ result.ending ≠ .cancelled

/-- A report is on a function that returned. -/
def Report.returned (r : Report α) : Bool := r.source.any (·.2.ending == .returned)

theorem selection_of_window {m : Monitor} {history : List (Report α)}
    (hwindow : m.window = history.map Report.measurement) (operation : Option String) :
    m.selection operation =
      (history.filter (·.concerns operation)).map Report.measurement := by
  cases operation with
  | none =>
      have hall : history.filter (·.concerns none) = history :=
        List.filter_eq_self.2 fun _ _ => rfl
      rw [hall]
      exact hwindow
  | some name =>
      rw [selection, hwindow, List.filter_map]
      rfl

/-- Doubles have statistics, however many. -/
theorem small_of_doubles {xs : List Measurement}
    (hdoubles : ∀ x ∈ xs, ∃ duration, x.duration = .float duration) : Small xs := by
  have hzero : (xs.map fun x => size x.duration).sum = 0 := by
    refine List.sum_eq_zero fun n hn => ?_
    obtain ⟨x, hx, rfl⟩ := List.mem_map.1 hn
    obtain ⟨duration, heq⟩ := hdoubles x hx
    rw [heq]
    rfl
  rw [Small, hzero]
  decide +kernel

/-- Of functions that returned or raised, the share of successes is that of those that returned. -/
theorem Settled.share {start : Watch α} {events : List (Float × Event α)} {calls : List (Call α)}
    {history chosen : List (Report α)} (hsettled : Settled start events calls history)
    (hchosen : ∀ r ∈ chosen, r ∈ history) (hne : chosen ≠ [])
    (hcompleted : ∀ r ∈ chosen, r.Completed) :
    ∃ s, statsOf (chosen.map Report.measurement) = .ok s ∧ s.count = chosen.length ∧
      s.successRate = Decimal.roundTo 2
        (Decimal.ofRatio (chosen.countP Report.returned) chosen.length * 100.0) := by
  have hdoubles : ∀ x ∈ chosen.map Report.measurement,
      ∃ duration, x.duration = .float duration := by
    intro x hx
    obtain ⟨r, hr, rfl⟩ := List.mem_map.1 hx
    obtain ⟨id, result, hsource, -⟩ := hcompleted r hr
    exact (hsettled.of_call (hchosen r hr) hsource).1
  have hcount : ((chosen.map Report.measurement).filter Measurement.success).length =
      chosen.countP Report.returned := by
    rw [← List.countP_eq_length_filter, List.countP_map]
    refine List.countP_congr fun r hr => ?_
    obtain ⟨id, result, hsource, hended⟩ := hcompleted r hr
    have hreturned : r.returned = true ↔ result.ending = .returned := by
      rw [Report.returned, hsource]
      exact beq_iff_eq
    rw [hreturned]
    exact (hsettled.of_call (hchosen r hr) hsource).2 hended
  obtain ⟨s, hstats⟩ := statsOf_ok (small_of_doubles hdoubles)
  have hfigures := figures_of_statsOf (fun hnil => hne (List.map_eq_nil_iff.1 hnil)) hstats
  refine ⟨s, hstats, ?_, ?_⟩
  · rw [hfigures.count_eq, List.length_map]
  · rw [hfigures.successRate_eq, hcount, List.length_map]

/-- Calls and direct measurements on one monitor, in any order: each call ends as its function does,
and adds one measurement when it ends; among measurements of functions that returned or raised the
share of successes is that of the functions that returned. -/
theorem run_measures (capacity : Option Nat) (slowThreshold : Number)
    (events : List (Float × Event α)) :
    let start : Watch α := { monitor := { capacity, slowThreshold } }
    let w := start.run events
    let history := start.reports events
    w.monitor.window = (w.monitor.lastOf history).map Report.measurement ∧
      Settled start events w.calls history ∧
      (history.filter (·.call? == none)).map Report.measurement =
        events.filterMap (·.2.tracked?) ∧
      ∀ operation,
        let chosen := (w.monitor.lastOf history).filter (·.concerns operation)
        chosen ≠ [] → (∀ r ∈ chosen, r.Completed) →
          ∃ s, w.monitor.stats operation = .ok s ∧ s.count = chosen.length ∧
            s.successRate = Decimal.roundTo 2
              (Decimal.ofRatio (chosen.countP Report.returned) chosen.length * 100.0) := by
  intro start w history
  obtain ⟨hcapacity, hkept⟩ := run_window start rfl events
  have hwindow : w.monitor.window = (w.monitor.lastOf history).map Report.measurement := by
    rw [map_lastOf, lastOf_congr hcapacity]
    exact hkept
  have hsettled := run_settled (α := α) { capacity, slowThreshold } events
  refine ⟨hwindow, hsettled, run_tracked start events, ?_⟩
  intro operation chosen hne hcompleted
  rw [stats, selection_of_window hwindow operation]
  refine hsettled.share (fun r hr => ?_) hne hcompleted
  exact (lastOf_sublist w.monitor history).subset (List.mem_filter.1 hr).1

/-- A function that is measured and returns. -/
def calledOnce : List (Float × Event Nat) :=
  [(0.0, .measure "sync" false), (1.0, .back 0 (.returned 1))]

/-- A window without room holds no measurement of it, and besides a failure that was tracked
directly it makes up half of the window, though nothing that was measured has failed. -/
theorem run_calledOnce_apart :
    let roomless : Watch Nat := Watch.run { monitor := { capacity := some 0 } } calledOnce
    let beside : Watch Nat :=
      Watch.run {} ((0.0, .track ⟨"sync", .int 0, false, false⟩) :: calledOnce)
    (roomless.calls = [⟨"sync", false, .ended (.returned 1)⟩] ∧ roomless.monitor.window = []) ∧
      beside.calls = [⟨"sync", false, .ended (.returned 1)⟩] ∧
      beside.monitor.window.map Measurement.success = [false, true] :=
  ⟨⟨rfl, rfl⟩, rfl, rfl⟩

end IssueSearch.Monitor.Watch
