import IssueSearch.Cache.Basic
import IssueSearch.Failure
/-!
Filling a cache ahead of use. The keys that are not present are fetched side by side; each answer
is stored when it comes, and a failure is noted and skipped.
-/
namespace IssueSearch.Cache

variable {τ α : Type} [Timeline τ]

/-- A key and what its fetcher comes back with, after giving way so many times. -/
structure Fetch (α : Type) where
  key : String
  answer : Except Failure α
  yields : Nat := 0

/-- The fetches of keys that are not present. -/
def missing (c : Cache τ α) (now : τ) :
    List (Fetch α) → Except Overflow (List (Fetch α)) × Cache τ α
  | [] => (.ok [], c)
  | f :: rest =>
      match c.contains now f.key with
      | .error cause => (.error cause, c)
      | .ok (present, c) =>
          let (pending, c) := missing c now rest
          (pending.map fun pending => if present then pending else f :: pending, c)

/-- Takes in what one fetch came back with, and tells how many entries were stored. -/
def settle (c : Cache τ α) (now : τ) (f : Fetch α) :
    Except Overflow Nat × Cache τ α × List LogRecord :=
  match f.answer with
  | .ok payload =>
      let (stored, c, log) := c.store now f.key payload (c.policy.ttlFor f.key)
      (stored.map fun _ => 1, c, log)
  | .error failure =>
      (.ok 0, c,
        [⟨.cache, .warning, "Cache warmup failed for " ++ f.key ++ ": " ++ failure.text⟩])

/-- Takes in fetches as they come back, each at its own moment. A store that fails keeps none of the
others from being taken in. -/
def arrive (c : Cache τ α) :
    List (τ × Fetch α) → Except Overflow Nat × Cache τ α × List LogRecord
  | [] => (.ok 0, c, [])
  | (now, f) :: rest =>
      let (one, c, log) := c.settle now f
      let (others, c, logs) := arrive c rest
      (one.bind fun one => others.map (one + ·), c, log ++ logs)

/-- What filling a cache did. -/
structure WarmUp (τ α : Type) where
  /-- The number of entries stored. -/
  stored : Except Overflow Nat
  /-- The keys that were fetched, in order of their start. -/
  fetched : List String := []
  cache : Cache τ α
  log : List LogRecord := []

/-- Fills the cache with fetches that come back as a schedule has it. None starts unless every key
can be looked up. -/
def fill (c : Cache τ α) (now : τ) (schedule : List (Fetch α) → List (τ × Fetch α))
    (fetches : List (Fetch α)) : WarmUp τ α :=
  match c.missing now fetches with
  | (.error cause, cache) => { stored := .error cause, cache }
  | (.ok pending, c) =>
      let (stored, cache, log) := c.arrive (schedule pending)
      { stored, fetched := pending.map Fetch.key, cache, log }

/-- The order in which fetches come back when all of them go on in turn: by the number of times
that each gives way, and in the given order among equals. -/
def byRounds (fetches : List (Fetch α)) : List (Fetch α) :=
  fetches.mergeSort fun f g => decide (f.yields ≤ g.yields)

/-- Fills the cache with fetches that go on in turn while the clock stands still. -/
def warmUp (c : Cache τ α) (now : τ) (fetches : List (Fetch α)) : WarmUp τ α :=
  c.fill now (fun pending => (byRounds pending).map fun f => (now, f)) fetches

end IssueSearch.Cache
