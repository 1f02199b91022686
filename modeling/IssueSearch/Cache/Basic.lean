import IssueSearch.Cache.Policy
import IssueSearch.Log
import IssueSearch.Text.CharSet
import IssueSearch.Timeline
/-!
A cache with times to live. Entries stand in the order in which their keys came to be present;
writing a present key again keeps its place. An expired entry is dropped when it is looked up, and
all expired entries are swept out every so many stores. A full cache gives up its first entry.

A clock may not be able to tell when an entry expires. Such an entry can be stored, but to look at
it fails and changes nothing.

`Cache.step` runs one command at one clock reading.
-/
namespace IssueSearch

namespace Cache

structure Entry (τ α : Type) where
  key : String
  payload : α
  createdAt : τ
  /-- Seconds. -/
  ttl : Int
  hits : Nat := 0

variable {τ α : Type} [Timeline τ]

def Entry.expiresAt (e : Entry τ α) : Except Overflow τ := Timeline.after e.createdAt e.ttl

def Entry.isExpired (e : Entry τ α) (now : τ) : Except Overflow Bool :=
  e.expiresAt.map (Timeline.reached now)

/-- Why a cache does not do what it is told to. -/
inductive Error where
  | ttl (cause : InvalidTtl)
  | overflow (cause : Overflow)

def Error.message : Error → String
  | .ttl cause => cause.message
  | .overflow cause => cause.message

structure Counters where
  hits : Nat := 0
  misses : Nat := 0
  sets : Nat := 0
  deletes : Nat := 0
  evictions : Nat := 0
deriving DecidableEq, Repr

end Cache

structure Cache (τ α : Type) where
  policy : Cache.Policy := {}
  entries : List (Cache.Entry τ α) := []
  counters : Cache.Counters := {}
  setsSinceSweep : Nat := 0

namespace Cache

variable {τ α : Type}

def keys (c : Cache τ α) : List String := c.entries.map Entry.key

def size (c : Cache τ α) : Nat := c.entries.length

/-- The entry of a key, expired or not. -/
def stored? (c : Cache τ α) (key : String) : Option (Entry τ α) := c.entries.find? (·.key == key)

/-- The entries without the one of a key. -/
def without (key : String) (entries : List (Entry τ α)) : List (Entry τ α) :=
  entries.filter (·.key != key)

/-- The entries with the one of the same key replaced in its place. -/
def replace (e : Entry τ α) (entries : List (Entry τ α)) : List (Entry τ α) :=
  entries.map fun old => if old.key == e.key then e else old

variable [Timeline τ]

/-- The entry of a key that has not expired; one that has is dropped. -/
def live (c : Cache τ α) (now : τ) (key : String) :
    Except Overflow (Option (Entry τ α) × Cache τ α) :=
  match c.stored? key with
  | none => .ok (none, c)
  | some e => (e.isExpired now).map fun expired =>
      if expired then (none, { c with entries := without key c.entries }) else (some e, c)

/-- Counts a lookup by what it found. -/
def countLookup : Option (Entry τ α) × Cache τ α → Option (Entry τ α) × Cache τ α
  | (none, c) => (none, { c with counters.misses := c.counters.misses + 1 })
  | (some e, c) =>
      let e := { e with hits := e.hits + 1 }
      (some e, { c with
        entries := replace e c.entries
        counters.hits := c.counters.hits + 1 })

/-- Looks a key up and counts the lookup. -/
def get? (c : Cache τ α) (now : τ) (key : String) :
    Except Overflow (Option (Entry τ α) × Cache τ α) :=
  (c.live now key).map countLookup

/-- Whether a key is present and has not expired. No lookup is counted. -/
def contains (c : Cache τ α) (now : τ) (key : String) : Except Overflow (Bool × Cache τ α) :=
  (c.live now key).map fun found => (found.1.isSome, found.2)

/-- The entries that have not expired. -/
def unexpired (now : τ) : List (Entry τ α) → Except Overflow (List (Entry τ α))
  | [] => .ok []
  | e :: rest => do
      let expired ← e.isExpired now
      let kept ← unexpired now rest
      return if expired then kept else e :: kept

/-- The cache with the entries that a sweep has kept, and how many it has dropped. -/
def afterSweep (c : Cache τ α) (kept : List (Entry τ α)) : Nat × Cache τ α × List LogRecord :=
  let count := c.entries.length - kept.length
  (count, { c with entries := kept, setsSinceSweep := 0 },
    if count = 0 then []
    else [⟨.cache, .debug, "Swept " ++ toString count ++ " expired cache entries"⟩])

/-- Drops the expired entries and tells how many there were. -/
def sweep (c : Cache τ α) (now : τ) : Except Overflow (Nat × Cache τ α × List LogRecord) :=
  (unexpired now c.entries).map c.afterSweep

/-- Gives up the first entry if there is no room for another. -/
def makeRoom (c : Cache τ α) : Cache τ α × List LogRecord :=
  match c.entries with
  | [] => (c, [])
  | oldest :: rest =>
      if c.policy.maxKeys ≤ c.entries.length then
        ({ c with entries := rest, counters.evictions := c.counters.evictions + 1 },
          [⟨.cache, .debug, "Cache at capacity, evicted oldest key " ++ oldest.key⟩])
      else (c, [])

/-- Puts an entry into its place, or behind the others if its key is absent. -/
def place (c : Cache τ α) (e : Entry τ α) : Cache τ α × List LogRecord :=
  if (c.stored? e.key).isSome then ({ c with entries := replace e c.entries }, [])
  else
    let (c, log) := c.makeRoom
    ({ c with entries := c.entries ++ [e] }, log)

/-- Stores a payload for so many seconds, then sweeps if it is time to. A sweep that fails leaves
the payload stored. -/
def store (c : Cache τ α) (now : τ) (key : String) (payload : α) (ttl : Int) :
    Except Overflow (Entry τ α) × Cache τ α × List LogRecord :=
  let e : Entry τ α := { key, payload, createdAt := now, ttl }
  let (c, log) := c.place e
  let c := { c with
    counters.sets := c.counters.sets + 1
    setsSinceSweep := c.setsSinceSweep + 1 }
  if c.policy.sweepInterval ≤ c.setsSinceSweep then
    match c.sweep now with
    | .ok (_, c, swept) => (.ok e, c, log ++ swept)
    | .error cause => (.error cause, c, log)
  else (.ok e, c, log)

/-- Stores a payload with the time to live asked for, or that of the key's domain. -/
def insert (c : Cache τ α) (now : τ) (key : String) (payload : α) (ttl : Json) :
    Except Error (Entry τ α) × Cache τ α × List LogRecord :=
  match c.policy.resolveTtl key ttl with
  | .error cause => (.error (.ttl cause), c, [])
  | .ok seconds =>
      let (stored, c, log) := c.store now key payload seconds
      (stored.mapError .overflow, c, log)

/-- Removes a key and tells how many entries went. -/
def erase (c : Cache τ α) (key : String) : Nat × Cache τ α :=
  if (c.stored? key).isSome then
    (1, { c with
      entries := without key c.entries
      counters.deletes := c.counters.deletes + 1 })
  else (0, c)

/-- Removes every key that has the pattern in it, and tells how many went. -/
def eraseMatching (c : Cache τ α) (pattern : String) : Nat × Cache τ α × List LogRecord :=
  let kept := c.entries.filter fun e => !Text.occursIn pattern.toList e.key.toList
  let count := c.entries.length - kept.length
  (count, { c with entries := kept, counters.deletes := c.counters.deletes + count },
    if count = 0 then []
    else [⟨.cache, .debug, "Invalidated " ++ toString count ++ " cache keys matching " ++
      Text.quoted pattern⟩])

/-- Removes the keys of a domain. -/
def invalidateDomain (c : Cache τ α) (domain : String) : Nat × Cache τ α × List LogRecord :=
  c.eraseMatching (domain ++ ":")

def clear (c : Cache τ α) : Cache τ α := { c with entries := [] }

/-- What a cache can be told to do. -/
inductive Command (α : Type) where
  | get (key : String)
  | set (key : String) (payload : α) (ttl : Json)
  | contains (key : String)
  | delete (key : String)
  | deletePattern (pattern : String)
  | invalidateDomain (domain : String)
  | clear
  | sweep

/-- What a cache answers. -/
inductive Reply (τ α : Type) where
  | found (entry : Option (Entry τ α))
  | stored (entry : Entry τ α)
  | failed (cause : Error)
  | present (yes : Bool)
  | removed (count : Nat)
  | done

/-- Runs a command at a clock reading. What fails changes nothing, save a store that fails in its
sweep. -/
def step (c : Cache τ α) (now : τ) : Command α → Reply τ α × Cache τ α × List LogRecord
  | .get key =>
      match c.get? now key with
      | .ok (found, c) => (.found found, c, [])
      | .error cause => (.failed (.overflow cause), c, [])
  | .set key payload ttl =>
      match c.insert now key payload ttl with
      | (.ok e, c, log) => (.stored e, c, log)
      | (.error cause, c, log) => (.failed cause, c, log)
  | .contains key =>
      match c.contains now key with
      | .ok (yes, c) => (.present yes, c, [])
      | .error cause => (.failed (.overflow cause), c, [])
  | .delete key =>
      let (count, c) := c.erase key
      (.removed count, c, [])
  | .deletePattern pattern =>
      let (count, c, log) := c.eraseMatching pattern
      (.removed count, c, log)
  | .invalidateDomain domain =>
      let (count, c, log) := c.invalidateDomain domain
      (.removed count, c, log)
  | .clear => (.done, c.clear, [])
  | .sweep =>
      match c.sweep now with
      | .ok (count, c, log) => (.removed count, c, log)
      | .error cause => (.failed (.overflow cause), c, [])

end Cache
end IssueSearch
