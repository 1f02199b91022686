import IssueSearch.Log
import IssueSearch.Number
/-!
A monitor of operations: it keeps the latest measurements, as many as its window holds, and counts
cache hits and misses. Slow operations are logged as they are tracked.
-/
namespace IssueSearch

/-- One run of an operation, with its duration in milliseconds. -/
structure Measurement where
  operation : String
  duration : Number
  success : Bool := true
  cached : Bool := false

structure Monitor where
  /-- The number of measurements kept; none is no bound. -/
  capacity : Option Nat := some 1000
  /-- Longer durations are slow. -/
  slowThreshold : Number := .int 1000
  /-- The measurements kept, the oldest first. -/
  window : List Measurement := []
  hits : Nat := 0
  misses : Nat := 0

namespace Monitor

/-- Why a value is no size of a window. -/
inductive CapacityError where
  | notInteger
  | negative
  | tooLarge
deriving DecidableEq, Repr

def CapacityError.message : CapacityError → String
  | .notInteger => "an integer is required"
  | .negative => "maxlen must be non-negative"
  | .tooLarge => "Python int too large to convert to C ssize_t"

/-- An empty monitor. The size of its window is natural and fits into sixty-four bits; nothing is no
bound. -/
def withCapacity (capacity : Json) (slowThreshold : Number) : Except CapacityError Monitor :=
  match capacity with
  | .null => .ok { capacity := none, slowThreshold }
  | value =>
      match (Number.ofJson? value).bind Number.integer? with
      | none => .error .notInteger
      | some n =>
          if !isWord n then .error .tooLarge
          else if n < 0 then .error .negative
          else .ok { capacity := some n.toNat, slowThreshold }

/-- The last `n` items. -/
def keepLast {α : Type} (n : Nat) (xs : List α) : List α := xs.drop (xs.length - n)

/-- The log record of a slow operation, with its duration as a whole number. -/
def slowRecord (x : Measurement) (whole : String) : LogRecord :=
  ⟨.monitor, .warning, "Slow operation detected: " ++ x.operation ++ " took " ++ whole ++
    "ms (cached=" ++ (Number.flag x.cached).text ++ ")"⟩

def isSlow (m : Monitor) (x : Measurement) : Bool := m.slowThreshold.lt x.duration

/-- Adds a measurement; the oldest ones leave a full window. -/
def keep (m : Monitor) (x : Measurement) : Monitor :=
  let window := m.window ++ [x]
  match m.capacity with
  | some n => { m with window := keepLast n window }
  | none => { m with window }

/-- Adds a measurement and logs it if it is slow. It is added even if it cannot be logged, because
its duration is beyond all doubles. -/
def track (m : Monitor) (x : Measurement) : Monitor × Except Overflow (List LogRecord) :=
  (m.keep x,
    if m.isSlow x then x.duration.wholeText.map fun whole => [slowRecord x whole] else .ok [])

/-- Adds a measurement by a clock and logs it if it is slow. -/
def trackSpan (m : Monitor) (operation : String) (duration : Float) (success cached : Bool) :
    Monitor × List LogRecord :=
  let x : Measurement := { operation, duration := .float duration, success, cached }
  (m.keep x, if m.isSlow x then [slowRecord x (Decimal.wholeText duration)] else [])

/-- Counts a cache lookup. -/
def trackLookup (m : Monitor) (hit : Bool) : Monitor :=
  if hit then { m with hits := m.hits + 1 } else { m with misses := m.misses + 1 }

/-- Forgets everything tracked. -/
def reset (m : Monitor) : Monitor := { m with window := [], hits := 0, misses := 0 }

/-- How a measured function ended. -/
inductive Ending where
  | returned | raised | cancelled
deriving DecidableEq, Repr

/-- Tracks a measured function: only one that raised counts as failed. -/
def measure (m : Monitor) (operation : String) (start stop : Float) (ending : Ending)
    (cached : Bool) : Monitor × List LogRecord :=
  m.trackSpan operation ((stop - start) * 1000.0) (ending != .raised) cached

/-- The operations in the window, each once, by first occurrence. -/
def operations (m : Monitor) : List String :=
  m.window.foldl
    (fun names x => if names.contains x.operation then names else names ++ [x.operation]) []

/-- Lookups that hit, as a percentage with two decimal places; zero without lookups. -/
def hitRate (m : Monitor) : Float :=
  let lookups := m.hits + m.misses
  if lookups = 0 then 0.0
  else Decimal.roundTo 2 (Decimal.ofRatio m.hits lookups * 100.0)

end Monitor
end IssueSearch
