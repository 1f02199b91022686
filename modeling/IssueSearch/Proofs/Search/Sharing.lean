import IssueSearch.Proofs.Search.Hits
/-!
Searches that share a cache and a clock, each with its own settings, calls and flights. An event
belongs to one of them; to the others it changes nothing but the cache and the clock, so that what
a search keeps of its own in a run by itself it keeps here. A key tells the first two key parts and
the request, and nothing else of the settings: a result found in the cache may have been made by
any search with these parts, for a request alike, under the settings of that search.
-/
namespace IssueSearch.Search

/-- What a search keeps for itself. -/
structure Part where
  monitor : Option Monitor := none
  metrics : Option Metrics := none
  calls : List Call := []
  inflight : List (String × CallId) := []

/-- Searches with one cache and one clock. -/
structure Shared (ι : Type) where
  cache : Cache Float Stored
  now : Float
  part : ι → Part

namespace Shared

variable {ι : Type}

/-- Searches that no call has come to yet. -/
def start (cache : Cache Float Stored) (monitors : ι → Option Monitor)
    (metrics : ι → Option Metrics) (now : Float) : Shared ι :=
  { cache, now, part := fun i => { monitor := monitors i, metrics := metrics i } }

/-- The state as one of the searches sees it. -/
def view (s : Shared ι) (i : ι) : State where
  cache := s.cache
  monitor := (s.part i).monitor
  metrics := (s.part i).metrics
  now := s.now
  calls := (s.part i).calls
  inflight := (s.part i).inflight

variable [DecidableEq ι]

/-- The searches when one of them has come into a state. -/
def put (s : Shared ι) (i : ι) (t : State) : Shared ι where
  cache := t.cache
  now := t.now
  part := fun j => if j = i then ⟨t.monitor, t.metrics, t.calls, t.inflight⟩ else s.part j

/-- The events that belong to a search. -/
def own (i : ι) (events : List (ι × Event)) : List Event :=
  events.filterMap fun event => if event.1 = i then some event.2 else none

variable (searches : ι → Search)

def step (s : Shared ι) (event : ι × Event) : Shared ι :=
  s.put event.1 ((searches event.1).step (s.view event.1) event.2).1

/-- The searches after events in turn. -/
def run (s : Shared ι) (events : List (ι × Event)) : Shared ι := events.foldl (step searches) s

/-- A request that is handed over to one of the searches. -/
def Asks (events : List (ι × Event)) (r : Request) : Prop :=
  ∃ i, (searches i).Asks (own i events) r

/-- No two requests of a run have one digest but by having one text. -/
def NoCollision (events : List (ι × Event)) : Prop :=
  ∀ r r', Asks searches events r → Asks searches events r' →
    Digest.short r.toJson.canonicalText = Digest.short r'.toJson.canonicalText →
      r.toJson.canonicalText = r'.toJson.canonicalText

variable {searches} {s : Shared ι} {i j : ι} {events : List (ι × Event)}

/-! ### One search among others -/

@[simp] theorem view_put_self (s : Shared ι) (i : ι) (t : State) : (s.put i t).view i = t := by
  simp [view, put]

theorem view_put_of_ne (s : Shared ι) (t : State) (hne : j ≠ i) :
    (s.put i t).view j = { s.view j with cache := t.cache, now := t.now } := by
  simp [view, put, hne]

theorem own_concat_self (i : ι) (events : List (ι × Event)) (event : Event) :
    own i (events ++ [(i, event)]) = own i events ++ [event] := by
  simp [own]

theorem own_concat_of_ne (events : List (ι × Event)) (event : Event) (hne : j ≠ i) :
    own j (events ++ [(i, event)]) = own j events := by
  simp [own, hne.symm]

theorem run_concat (searches : ι → Search) (s : Shared ι) (events : List (ι × Event))
    (event : ι × Event) :
    run searches s (events ++ [event]) = step searches (run searches s events) event := by
  simp [run]

@[simp] theorem put_view (s : Shared ι) (i : ι) : s.put i (s.view i) = s := by
  have hparts : (fun j => if j = i then s.part i else s.part j) = s.part := by
    funext j
    by_cases heq : j = i
    · rw [if_pos heq, heq]
    · rw [if_neg heq]
  simp only [put, view, hparts]

@[simp] theorem put_put (s : Shared ι) (i : ι) (t t' : State) :
    (s.put i t).put i t' = s.put i t' := by
  have hparts : ∀ part other : Part,
      (fun j => if j = i then part else if j = i then other else s.part j) =
        fun j => if j = i then part else s.part j := by
    intro part other
    funext j
    by_cases heq : j = i
    · rw [if_pos heq, if_pos heq]
    · rw [if_neg heq, if_neg heq, if_neg heq]
  simp only [put, hparts]

/-- As long as all events belong to one search, it runs as it would by itself. -/
theorem run_alone (searches : ι → Search) (s : Shared ι) (i : ι) (events : List Event) :
    run searches s (events.map (i, ·)) = s.put i ((searches i).run (s.view i) events) := by
  induction events generalizing s with
  | nil => exact (put_view s i).symm
  | cons event rest ih =>
      have hrest := ih (step searches s (i, event))
      rw [step, view_put_self, put_put] at hrest
      exact hrest

theorem own_subset_append (i : ι) (earlier later : List (ι × Event)) :
    own i earlier ⊆ own i (earlier ++ later) := by
  rw [own, own, List.filterMap_append]
  exact List.subset_append_left _ _

/-- What a search keeps in its own steps, whatever becomes of the cache and the clock, it keeps
among others. -/
theorem run_keeps {P : List Event → State → Prop} (hstart : P [] (s.view i))
    (hown : ∀ earlier t event, P earlier t →
      P (earlier ++ [event]) ((searches i).step t event).1)
    (hforeign : ∀ earlier t cache now, P earlier t → P earlier { t with cache, now })
    (events : List (ι × Event)) : P (own i events) ((run searches s events).view i) := by
  induction events using List.reverseRecOn with
  | nil => exact hstart
  | append_singleton events event ih =>
      obtain ⟨j, event⟩ := event
      rw [run_concat, step]
      -- A step of another search is seen only in the cache and on the clock.
      by_cases hsame : i = j
      · subst hsame
        rw [view_put_self, own_concat_self]
        exact hown _ _ event ih
      · rw [view_put_of_ne _ _ hsame, own_concat_of_ne _ _ hsame]
        exact hforeign _ _ _ _ ih

section Idle

variable (hnew : ∀ i, (s.part i).calls = []) (hidle : ∀ i, (s.part i).inflight = [])

include hnew

theorem run_honest (i : ι) (events : List (ι × Event)) :
    ∀ id phase, ((run searches s events).view i).phase? id = some phase →
      phase.Honest (searches i) (own i events) := by
  refine run_keeps (P := fun earlier t => ∀ id phase, t.phase? id = some phase →
    phase.Honest (searches i) earlier) ?_ ?_ ?_ events
  · intro id phase hphase
    simp [State.phase?, view, hnew] at hphase
  · exact fun _ _ event h => step_honest h event
  · exact fun _ _ _ _ h => h

include hidle

theorem run_followsLed (i : ι) (events : List (ι × Event)) :
    ((run searches s events).view i).FollowsLed := by
  suffices hboth : ((run searches s events).view i).SingleFlight ∧
      ((run searches s events).view i).FollowsLed from hboth.2
  refine run_keeps (P := fun _ t => t.SingleFlight ∧ t.FollowsLed) ?_ ?_ ?_ events
  · refine ⟨State.singleFlight_of_idle (hnew i) (hidle i), fun id flight leader hphase => ?_⟩
    simp [State.phase?, view, hnew] at hphase
  · intro _ t event h
    exact ⟨((searches i).step_move t event).shift.singleFlight h.1, step_followsLed h.1 h.2 event⟩
  · exact fun _ _ _ _ h => ⟨⟨h.1.keys_nodup, h.1.mem_iff⟩, h.2⟩

/-- A call that ends with a result from the cache has found it there itself. -/
theorem run_serves (events : List (ι × Event)) : ∀ id result,
    ((run searches s events).view i).outcome? id = some (.returned result) →
    result.metadata.cached = true →
    ∃ earlier later r entry, events = earlier ++ (i, .resume id) :: later ∧
      (searches i).Serves ((run searches s earlier).view i) id r entry result := by
  induction events using List.reverseRecOn with
  | nil =>
      intro id result houtcome
      simp [run, State.outcome?, State.phase?, view, hnew] at houtcome
  | append_singleton events event ih =>
      obtain ⟨j, event⟩ := event
      intro id result houtcome hcached
      have hextend : ((run searches s events).view i).outcome? id = some (.returned result) →
          ∃ earlier later r entry, events ++ [(j, event)] = earlier ++ (i, .resume id) :: later ∧
            (searches i).Serves ((run searches s earlier).view i) id r entry result := by
        intro hold
        obtain ⟨earlier, later, r, entry, rfl, hserves⟩ := ih id result hold hcached
        exact ⟨earlier, later ++ [(j, event)], r, entry, by simp, hserves⟩
      rw [run_concat, step] at houtcome
      by_cases hsame : i = j
      · subst hsame
        rw [view_put_self] at houtcome
        rcases step_serves (run_followsLed hnew hidle i events) houtcome hcached with
          hold | ⟨rfl, r, entry, hserves⟩
        · exact hextend hold
        · exact ⟨events, [], r, entry, rfl, hserves⟩
      · rw [view_put_of_ne _ _ hsame] at houtcome
        exact hextend houtcome

end Idle

/-! ### Where the entries of a shared cache come from -/

variable (searches) in
/-- What one of the searches has made of an answer under a key in the course of events. -/
inductive Made (s : Shared ι) : List (ι × Event) → String → SearchResult → Prop
  | of_answer {maker : ι} {earlier later : List (ι × Event)} {answer : Event} {leader : CallId}
      {sent : Sent} {records : List Json}
      (fetches : Fetches ((run searches s earlier).view maker) answer leader sent records) :
      Made s (earlier ++ (maker, answer) :: later) sent.flight.key
        ((searches maker).resultOf (run searches s earlier).now sent records)

theorem Made.concat {key : String} {result : SearchResult}
    (hmade : Made searches s events key result) (event : ι × Event) :
    Made searches s (events ++ [event]) key result := by
  cases hmade with
  | of_answer fetches =>
      rw [List.append_assoc, List.cons_append]
      exact .of_answer fetches

/-- Where nothing but answers is written, every entry was made by one of the searches. -/
theorem run_made (hempty : s.cache.entries = [])
    (hwrites : ∀ event ∈ events, event.2.writes = false) :
    ∀ e ∈ (run searches s events).cache.entries,
      ∃ result, e.payload = .result result ∧ Made searches s events e.key result := by
  induction events using List.reverseRecOn with
  | nil =>
      intro e he
      rw [run, List.foldl_nil, hempty] at he
      cases he
  | append_singleton events event ih =>
      have hrun := ih fun other hother => hwrites other (List.mem_append_left _ hother)
      obtain ⟨j, event⟩ := event
      intro e he
      have hevent : event.writes = false := hwrites (j, event) (by simp)
      rw [run_concat] at he
      rcases mem_step_cases hevent he with
        ⟨old, hold, hsame⟩ | ⟨id, sent, records, hfetches, hkey, hpayload⟩
      · obtain ⟨result, hpayload, hmade⟩ := hrun old hold
        rw [hsame]
        exact ⟨result, hpayload, hmade.concat (j, event)⟩
      · rw [hkey]
        exact ⟨_, hpayload, .of_answer hfetches⟩

end Shared
end IssueSearch.Search
