import IssueSearch.Monitor.Basic
import IssueSearch.Ranking.Sort
/-!
Statistics of a monitor's window, over all operations or one of them, and the report made of them.
-/
namespace IssueSearch

structure OperationStats where
  count : Nat := 0
  average : Float := 0.0
  least : Number := .float 0.0
  greatest : Number := .float 0.0
  /-- The duration that at most a twentieth of the selection lies above. -/
  p95 : Number := .float 0.0
  /-- A percentage. -/
  successRate : Float := 100.0

namespace Monitor

/-- The measurements of an operation, or all of them. -/
def selection (m : Monitor) (operation : Option String) : List Measurement :=
  match operation with
  | none => m.window
  | some name => m.window.filter (·.operation == name)

/-- Durations in ascending order; where each lies is worked out once. -/
def sortedDurations (xs : List Measurement) : List Number :=
  let placed := xs.map fun x => (x.duration.position?, x.duration)
  (Ranking.sorted (fun a b => Position.before a.1 b.1) placed).map Prod.snd

/-- The position of the 95th percentile among `count` sorted durations, the whole part of a product
of doubles. It fits into a word, as every count does. -/
def p95Index (count : Nat) : Nat := (Decimal.ofInt count * 0.95).toUInt64.toNat

/-- Statistics of a selection; an empty one has statistics of its own. There are none if the average
is beyond all doubles. -/
def statsOf (xs : List Measurement) : Except Overflow OperationStats :=
  match sortedDurations xs with
  | [] => .ok {}
  | least :: rest => do
      let sorted := least :: rest
      let count := xs.length
      let total ← Number.sum sorted
      let average ← total.divNat count
      let successes := (xs.filter Measurement.success).length
      return {
        count
        average := Decimal.roundTo 2 average
        least
        greatest := sorted.getLastD least
        p95 := sorted.getD (p95Index count) least
        successRate := Decimal.roundTo 2 (Decimal.ofRatio successes count * 100.0) }

def stats (m : Monitor) (operation : Option String) : Except Overflow OperationStats :=
  statsOf (m.selection operation)

/-- The lines of a report on one operation. -/
def operationLines (m : Monitor) (operation : String) : Except Overflow (List String) := do
  let s ← m.stats (some operation)
  return [
    "  " ++ operation ++ ":",
    "    Count: " ++ toString s.count,
    "    Avg: " ++ Decimal.text s.average ++ "ms",
    "    P95: " ++ s.p95.text ++ "ms",
    "    Min/Max: " ++ s.least.text ++ "ms / " ++ s.greatest.text ++ "ms",
    "    Success Rate: " ++ Decimal.text s.successRate ++ "%" ]

/-- A summary of cache lookups and operations. -/
def report (m : Monitor) : Except Overflow String := do
  let lines := [
    "Performance Report",
    String.ofList (List.replicate 50 '='),
    "",
    "Cache Statistics:",
    "  Hits: " ++ toString m.hits,
    "  Misses: " ++ toString m.misses,
    "  Hit Rate: " ++ Decimal.text m.hitRate ++ "%",
    "",
    "Operation Statistics:" ]
  let blocks ← m.operations.mapM m.operationLines
  return "\n".intercalate (lines ++ blocks.flatten)

end Monitor
end IssueSearch
