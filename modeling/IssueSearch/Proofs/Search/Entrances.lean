import IssueSearch.Proofs.Search.Attempt
import IssueSearch.Proofs.Search.Coalescing
/-!
Two entrances. A value is checked before its key is looked up, a request only once it has missed the
cache and finds no flight. Where nothing but answers is written it makes no difference by which of
them a request comes in: what the checks reject has never been sent to the backend, so nothing is
stored under its key, and nobody leads a flight under it.
-/
namespace IssueSearch

namespace Validation

/-- The request that a value is read as, or what keeps it from being read. -/
def parse (value : Json) : Except (List String) Request :=
  match membersOf value with
  | .error e => .error [e.message]
  | .ok members => (Request.ofMembers members).mapError fun faults => faults.map Fault.message

variable {settings : Settings} {value : Json} {r r' : Request}

end Validation

namespace Search

variable {search : Search} {start s : State} {n : CallId} {r : Request} {value : Json}

section Rejected

variable {all events : List Event}

end Rejected

section Put

variable {call call' : Call}

end Put

/-! ### Calls that have not begun -/

/-- A call that has ended starts no backend call. -/
theorem started_of_ended {outcome : Outcome} (hended : s.outcome? n = some outcome)
    (events : List Event) : search.started n s events = [] := by
  induction events generalizing s with
  | nil => rfl
  | cons event rest ih =>
      have hlater : (search.step s event).1.outcome? n = some outcome := outcome?_step hended event
      rw [started, ih hlater, List.append_nil]
      exact startedBy_of_unled (State.outcome?_eq_some_iff.1 hlater) (by simp)

/-- Nor does one that ends by a step. -/
theorem started_of_ends {event : Event} {outcome : Outcome}
    (hends : (search.step s event).1.outcome? n = some outcome) (rest : List Event) :
    search.started n s (event :: rest) = [] := by
  rw [started, started_of_ended hends, List.append_nil]
  exact startedBy_of_unled (State.outcome?_eq_some_iff.1 hends) (by simp)

variable {input input' : Input} {requested : Bool} {events : List Event}

variable (search) in
/-- A call goes on alike in two states: to one state, or to one end. -/
def GoesOnAlike (n : CallId) (s s' : State) : Prop :=
  (search.step s (.resume n)).1 = (search.step s' (.resume n)).1 ∨
    ∃ outcome, (search.step s (.resume n)).1.outcome? n = some outcome ∧
      (search.step s' (.resume n)).1.outcome? n = some outcome

theorem startedBy_of_ready {s' after : State} (hphase : s.phase? n = some (.ready input))
    (hphase' : s'.phase? n = some (.ready input')) :
    startedBy s after n = startedBy s' after n := by
  rw [startedBy, startedBy, hphase, hphase']
  rcases after.phase? n with _ | (_ | _ | _ | _) <;> rfl

theorem GoesOnAlike.rest {s' : State} (halike : search.GoesOnAlike n s s')
    (hphase : s.phase? n = some (.ready input)) (hphase' : s'.phase? n = some (.ready input'))
    (rest : List Event) :
    (search.run s (.resume n :: rest)).outcome? n =
        (search.run s' (.resume n :: rest)).outcome? n ∧
      search.started n s (.resume n :: rest) = search.started n s' (.resume n :: rest) := by
  rcases halike with hsame | ⟨outcome, hends, hends'⟩
  · rw [run, run, List.foldl_cons, List.foldl_cons, started, started,
      startedBy_of_ready hphase hphase', hsame]
    exact ⟨rfl, rfl⟩
  · rw [started_of_ends hends, started_of_ends hends']
    exact ⟨(outcome?_run hends rest).trans (outcome?_run hends' rest).symm, rfl⟩

end Search
end IssueSearch
