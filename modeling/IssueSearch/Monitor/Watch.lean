import IssueSearch.Failure
import IssueSearch.Monitor.Basic
/-!
Functions that a monitor measures, several of them on their way at once. A call waits for its
function and hands on what that comes to; its measurement is added when it ends. Meanwhile other
calls come in and other measurements are tracked.

`Watch.step` lets one thing happen at one clock reading. What does not apply changes nothing.
-/
namespace IssueSearch.Monitor

namespace Watch

/-- What an awaited function comes to. -/
inductive Result (α : Type) where
  | returned (value : α)
  | raised (failure : Failure)
  | cancelled

def Result.ending {α : Type} : Result α → Ending
  | .returned _ => .returned
  | .raised _ => .raised
  | .cancelled => .cancelled

inductive Phase (α : Type) where
  /-- Waiting for its function since a reading of the clock. -/
  | awaiting (start : Float)
  | ended (result : Result α)

structure Call (α : Type) where
  operation : String
  cached : Bool
  phase : Phase α

/-- Calls are numbered in order of arrival. -/
abbrev CallId := Nat

end Watch

structure Watch (α : Type) where
  monitor : Monitor := {}
  /-- Every call that has come in, at the position of its number. -/
  calls : List (Watch.Call α) := []

namespace Watch

variable {α : Type}

/-- What can happen. -/
inductive Event (α : Type) where
  | measure (operation : String) (cached : Bool)
  /-- The function of a call is through. -/
  | back (id : CallId) (result : Result α)
  | track (x : Measurement)

/-- Lets something happen; a measurement that cannot be logged is tracked all the same. -/
def step (w : Watch α) (now : Float) : Event α → Watch α × Except Overflow (List LogRecord)
  | .measure operation cached =>
      ({ w with calls := w.calls ++ [{ operation, cached, phase := .awaiting now }] }, .ok [])
  | .back id result =>
      match w.calls[id]? with
      | some ⟨operation, cached, .awaiting start⟩ =>
          let (monitor, log) := w.monitor.measure operation start now result.ending cached
          ({ monitor
             calls := w.calls.modify id fun call => { call with phase := .ended result } }, .ok log)
      | _ => (w, .ok [])
  | .track x =>
      let (monitor, log) := w.monitor.track x
      ({ w with monitor }, log)

/-- The watch after events in turn, each at its clock reading. -/
def run (w : Watch α) (events : List (Float × Event α)) : Watch α :=
  events.foldl (fun w event => (w.step event.1 event.2).1) w

end Watch
end IssueSearch.Monitor
