import IssueSearch.Metrics.Client
import Mathlib
/-!
Recording on a library of series. Whatever the library does, a record comes to its end without
raising, in the state in which trying it was left. `Client.Counting` is what a library of counters
promises.
-/
namespace IssueSearch.Metrics

variable {σ δ : Type}

/-! ### Actions -/

namespace Effect

variable {α β : Type} {x : Effect σ α} {s s' : σ} {fault : Fault}

theorem runOn_bind (x : Effect σ α) (f : α → Effect σ β) (s : σ) :
    (x >>= f).runOn s = match x.runOn s with
      | (.ok a, s') => (f a).runOn s'
      | (.error fault, s') => (.error fault, s') := by
  change (ExceptT.bindCont f (x.runOn s).1).run (x.runOn s).2 = _
  rcases x.runOn s with ⟨⟨fault⟩ | ⟨a⟩, s'⟩
  · rfl
  · rfl

theorem runOn_bind_ok {a : α} (hx : x.runOn s = (.ok a, s')) (f : α → Effect σ β) :
    (x >>= f).runOn s = (f a).runOn s' := by
  rw [runOn_bind, hx]

theorem runOn_bind_error (hx : x.runOn s = (.error fault, s')) (f : α → Effect σ β) :
    (x >>= f).runOn s = (.error fault, s') := by
  rw [runOn_bind, hx]

theorem runOn_tryCatch (x : Effect σ α) (handle : Fault → Effect σ α) (s : σ) :
    (tryCatch x handle).runOn s = match x.runOn s with
      | (.ok a, s') => (.ok a, s')
      | (.error fault, s') => (handle fault).runOn s' := by
  change (ExceptT.tryCatch x handle).run.run s = _
  rw [ExceptT.tryCatch, ExceptT.run_mk, StateT.run_bind]
  change (x.run.run s >>= _) = _
  unfold runOn
  rcases x.run.run s with ⟨⟨fault⟩ | ⟨a⟩, s'⟩
  · rfl
  · rfl

end Effect

/-! ### Records -/

namespace Client

open Effect

variable {client : Client σ δ} {call : Call} {s s' : σ}

theorem record_of_emitted (hemit : (client.emit call).runOn s = (.ok (), s')) :
    (client.record true call).runOn s = (.ok [], s') := by
  rw [record, if_pos rfl, runOn_tryCatch, runOn_bind_ok hemit]
  rfl

/-- What is raised is logged and goes no further. -/
theorem record_of_failed {fault : Fault}
    (hemit : (client.emit call).runOn s = (.error fault, s')) :
    (client.record true call).runOn s = (.ok [emitFailed], s') := by
  rw [record, if_pos rfl, runOn_tryCatch, runOn_bind_error hemit]
  rfl

/-- A record does not raise, whatever the library does, and leaves the state in which trying it was
left. -/
theorem record_ok (client : Client σ δ) (call : Call) (s : σ) :
    ∃ log, (client.record true call).runOn s = (.ok log, ((client.emit call).runOn s).2) := by
  rcases hemit : (client.emit call).runOn s with ⟨⟨⟩ | ⟨⟩, s'⟩
  · exact ⟨_, record_of_failed hemit⟩
  · exact ⟨_, record_of_emitted hemit⟩

theorem run_nil (client : Client σ δ) (s : σ) : (client.run []).runOn s = (.ok [], s) := rfl

theorem run_cons {log : List LogRecord} {logs : List (List LogRecord)} {calls : List Call}
    {s'' : σ} (hrecord : (client.record true call).runOn s = (.ok log, s'))
    (hrest : (client.run calls).runOn s' = (.ok logs, s'')) :
    (client.run (call :: calls)).runOn s = (.ok (log :: logs), s'') := by
  rw [run] at hrest ⊢
  rw [List.mapM_cons, runOn_bind_ok hrecord, runOn_bind_ok hrest]
  rfl

/-- Nor do any number of records. -/
theorem run_ok (client : Client σ δ) (calls : List Call) (s : σ) :
    ∃ logs, (client.run calls).runOn s = (.ok logs, client.after s calls) := by
  suffices h : ∃ logs s', (client.run calls).runOn s = (.ok logs, s') by
    obtain ⟨logs, s', hrun⟩ := h
    refine ⟨logs, ?_⟩
    rw [after, hrun]
  induction calls generalizing s with
  | nil => exact ⟨_, _, client.run_nil s⟩
  | cons call rest ih =>
      obtain ⟨log, hrecord⟩ := client.record_ok call s
      obtain ⟨logs, s', hrest⟩ := ih ((client.emit call).runOn s).2
      exact ⟨_, _, run_cons hrecord hrest⟩

/-- Records are taken in one after the other, each leaving the state in which trying it was left. -/
theorem after_cons (client : Client σ δ) (s : σ) (call : Call) (calls : List Call) :
    client.after s (call :: calls) = client.after ((client.emit call).runOn s).2 calls := by
  obtain ⟨log, hrecord⟩ := client.record_ok call s
  obtain ⟨logs, hrest⟩ := client.run_ok calls ((client.emit call).runOn s).2
  rw [after, run_cons hrecord hrest]

end Client

/-! ### Counters -/

/-- What a library of counters promises: series come to be, at nothing, when they are first asked
for, every number that is observed and every increment counts one, and series under other labels and
of the other kind are left alone. -/
structure Client.Counting (client : Client σ δ) : Prop where
  count_fresh : client.count client.fresh = 0
  openDurations : ∀ labels s, ∃ s', (client.openDurations labels).runOn s = (.ok (), s') ∧
    (∀ other, client.durations? s' other = if other = labels then
      some ((client.durations? s labels).getD client.fresh) else client.durations? s other) ∧
    ∀ other, client.total? s' other = client.total? s other
  observe : ∀ labels seconds s old, seconds.isNaN = false →
    client.durations? s labels = some old →
    ∃ s' new, (client.observe labels seconds).runOn s = (.ok (), s') ∧
      client.count new = client.count old + 1 ∧
      (∀ other, client.durations? s' other = if other = labels then some new
        else client.durations? s other) ∧
      ∀ other, client.total? s' other = client.total? s other
  openTotal : ∀ labels s, ∃ s', (client.openTotal labels).runOn s = (.ok (), s') ∧
    (∀ other, client.total? s' other = if other = labels then
      some ((client.total? s labels).getD 0) else client.total? s other) ∧
    ∀ other, client.durations? s' other = client.durations? s other
  increment : ∀ labels s old, client.total? s labels = some old →
    ∃ s', (client.increment labels).runOn s = (.ok (), s') ∧
      (∀ other, client.total? s' other = if other = labels then some (old + 1)
        else client.total? s other) ∧
      ∀ other, client.durations? s' other = client.durations? s other

end IssueSearch.Metrics
