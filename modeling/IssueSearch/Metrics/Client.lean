import IssueSearch.Failure
import IssueSearch.Metrics
/-!
Recording on a library of series that this one does not know. For each record the library is asked
for four things in turn, each of which may raise, as may the division by a thousand in between. What
is raised is caught and logged, and what was done before it stays.

`Client.record` is recording on any such library; `series` are the series of this one.
-/
namespace IssueSearch.Metrics

/-- Why a record is cut short. -/
inductive Fault where
  /-- The duration has no value in seconds. -/
  | duration
  | library (failure : Failure)

/-- What changes a state and may raise; the state stays as it is then. -/
abbrev Effect (σ : Type) := ExceptT Fault (StateM σ)

/-- What an action comes to, and the state that it leaves. -/
def Effect.runOn {σ α : Type} (x : Effect σ α) (s : σ) : Except Fault α × σ := x.run.run s

/-- A duration in seconds. -/
def Effect.seconds {σ : Type} (duration : Json) : Effect σ Float :=
  match seconds? duration with
  | some seconds => pure seconds
  | none => throw .duration

/-- A library that keeps a series of durations and a counter for each combination of labels. -/
structure Client (σ δ : Type) where
  /-- Asks for the durations under some labels. -/
  openDurations : Labels → Effect σ Unit
  /-- Adds seconds to the durations under some labels. -/
  observe : Labels → Float → Effect σ Unit
  /-- Asks for the counter under some labels. -/
  openTotal : Labels → Effect σ Unit
  /-- Adds one to the counter under some labels. -/
  increment : Labels → Effect σ Unit
  /-- The durations under some labels, if there are any. -/
  durations? : σ → Labels → Option δ
  /-- Durations that nothing was added to. -/
  fresh : δ
  /-- How many numbers were added to some durations. -/
  count : δ → Nat
  /-- The counter under some labels, if there is one. -/
  total? : σ → Labels → Option Nat

/-- A record that is to be taken in. -/
structure Call where
  labels : Labels
  duration : Json

def emitFailed : LogRecord := ⟨.metrics, .debug, "Failed to emit metrics labels"⟩

namespace Client

variable {σ δ : Type}

/-- What is tried for a record. -/
def emit (client : Client σ δ) (call : Call) : Effect σ Unit := do
  client.openDurations call.labels
  client.observe call.labels (← Effect.seconds call.duration)
  client.openTotal call.labels
  client.increment call.labels

/-- Takes a record in. -/
def record (client : Client σ δ) (enabled : Bool) (call : Call) : Effect σ (List LogRecord) :=
  if enabled then
    try
      client.emit call
      pure []
    catch _ => pure [emitFailed]
  else pure []

/-- Takes records in one after the other. -/
def run (client : Client σ δ) (calls : List Call) : Effect σ (List (List LogRecord)) :=
  calls.mapM (client.record true)

/-- The state after records were taken in. -/
def after (client : Client σ δ) (s : σ) (calls : List Call) : σ :=
  ((client.run calls).runOn s).2

/-- The number of durations under some labels. -/
def observed (client : Client σ δ) (s : σ) (labels : Labels) : Nat :=
  match client.durations? s labels with
  | some durations => client.count durations
  | none => 0

/-- The value of the counter under some labels. -/
def counted (client : Client σ δ) (s : σ) (labels : Labels) : Nat :=
  (client.total? s labels).getD 0

end Client

/-- Makes sure that a counter under some labels exists. -/
def openTotal (labels : Labels) (series : List Total) : List Total :=
  if series.any (·.labels == labels) then series else series ++ [{ labels := labels }]

/-- The series of this library: their durations are told by number and sum. -/
def series : Client Metrics (Nat × Float) where
  openDurations labels := modify fun m =>
    { m with durations := Metrics.openDurations labels m.durations }
  observe labels seconds := modify fun m =>
    { m with durations := Metrics.observe labels seconds m.durations }
  openTotal labels := modify fun m => { m with totals := Metrics.openTotal labels m.totals }
  increment labels := modify fun m => { m with totals := Metrics.increment labels m.totals }
  durations? m labels :=
    (m.durations.find? (·.labels == labels)).map fun s => (s.count, s.sum)
  fresh := (0, 0.0)
  count := Prod.fst
  total? m labels := (m.totals.find? (·.labels == labels)).map Total.count

/-- The metrics after records were taken in one after the other. -/
def recordAll (m : Metrics) (calls : List Call) : Metrics :=
  calls.foldl (fun m call => (m.record call.labels call.duration).1) m

end IssueSearch.Metrics
