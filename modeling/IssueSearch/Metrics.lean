import IssueSearch.Json.Basic
import IssueSearch.Log
import IssueSearch.Number
/-!
Exported metrics: for each combination of labels a series of durations and a counter. A record
first takes part in the durations, then in the counter; one whose duration is no number stops in
between, after its series of durations has come to be.
-/
namespace IssueSearch

structure Metrics.Labels where
  operation : String
  outcome : String
  cached : Bool
deriving DecidableEq, Repr

/-- Durations under one combination of labels, in seconds. -/
structure Metrics.Durations where
  labels : Labels
  count : Nat := 0
  sum : Float := 0.0

/-- A counter under one combination of labels. -/
structure Metrics.Total where
  labels : Labels
  count : Nat := 0

structure Metrics where
  enabled : Bool := true
  durations : List Metrics.Durations := []
  totals : List Metrics.Total := []

namespace Metrics

/-- The value of a duration in milliseconds as seconds; none if it is no number or beyond all
doubles. -/
def seconds? : Json → Option Float
  | .bool b => some (Decimal.toFloat false (if b then 1 else 0) (-3))
  | .int n =>
      let x := Decimal.toFloat (n < 0) n.natAbs (-3)
      if x.isInf then none else some x
  | .float x => some (x / 1000.0)
  | _ => none

/-- Makes sure that durations under some labels exist. -/
def openDurations (labels : Labels) (series : List Durations) : List Durations :=
  if series.any (·.labels == labels) then series else series ++ [{ labels := labels }]

/-- Adds to the durations under some labels. What is not a number adds to the sum alone. -/
def observe (labels : Labels) (seconds : Float) (series : List Durations) : List Durations :=
  (openDurations labels series).map fun s =>
    if s.labels == labels then
      { s with count := s.count + (if seconds.isNaN then 0 else 1), sum := s.sum + seconds }
    else s

/-- Adds one to the counter under some labels. -/
def increment (labels : Labels) (series : List Total) : List Total :=
  if series.any (·.labels == labels) then
    series.map fun s => if s.labels == labels then { s with count := s.count + 1 } else s
  else series ++ [{ labels, count := 1 }]

/-- Takes a record in. Failures are logged and go no further. -/
def record (m : Metrics) (labels : Labels) (duration : Json) : Metrics × List LogRecord :=
  if !m.enabled then (m, [])
  else match seconds? duration with
    | some seconds =>
        ({ m with
          durations := observe labels seconds m.durations
          totals := increment labels m.totals }, [])
    | none =>
        ({ m with durations := openDurations labels m.durations },
          [⟨.metrics, .debug, "Failed to emit metrics labels"⟩])

/-- A sample as it is exported: its name, its labels and the text of its value. -/
abbrev Sample := List String

def sample (name : String) (labels : Labels) (value : Float) : Sample :=
  [name, labels.operation, labels.outcome, if labels.cached then "true" else "false",
    Decimal.text value]

/-- Samples in the order of their first text that differs. -/
def sampleLe : Sample → Sample → Bool
  | [], _ => true
  | _ :: _, [] => false
  | a :: as, b :: bs => if a = b then sampleLe as bs else decide (a ≤ b)

/-- The samples of all series, sorted. -/
def samples (m : Metrics) : List Sample :=
  let all :=
    m.durations.flatMap (fun s => [
      sample "tracker_query_duration_seconds_count" s.labels (Decimal.ofInt s.count),
      sample "tracker_query_duration_seconds_sum" s.labels s.sum]) ++
    m.totals.map fun s => sample "tracker_query_total" s.labels (Decimal.ofInt s.count)
  all.mergeSort sampleLe

end Metrics
end IssueSearch
