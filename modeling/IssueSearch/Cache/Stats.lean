import IssueSearch.Cache.Basic
/-!
Figures about a cache, and how well it does: the share of lookups that found something, rounded to
two decimal places, decides.
-/
namespace IssueSearch.Cache

variable {τ α : Type}

/-- Seconds since an entry was stored. -/
def Entry.age (e : Entry Float α) (now : Float) : Float := now - e.createdAt

structure Stats where
  counters : Counters
  totalKeys : Nat
  hitRate : Float
  /-- The first keys, at most fifty. -/
  someKeys : List String

/-- The share of lookups that found something; zero without lookups. -/
def Counters.hitRate (n : Counters) : Float :=
  let lookups := n.hits + n.misses
  if lookups = 0 then 0.0 else Decimal.roundTo 2 (Decimal.ofRatio n.hits lookups)

def stats (c : Cache τ α) : Stats where
  counters := c.counters
  totalKeys := c.size
  hitRate := c.counters.hitRate
  someKeys := c.keys.take 50

inductive Health where
  | healthy | warning | poor
deriving DecidableEq, Repr

def Health.name : Health → String
  | .healthy => "healthy"
  | .warning => "warning"
  | .poor => "poor"

/-- More than 0.7 is healthy, more than 0.4 a warning. -/
def Health.ofRate (rate : Float) : Health :=
  if 0.7 < rate then .healthy else if 0.4 < rate then .warning else .poor

def raiseTtl : String := "Consider increasing cache TTL for frequently accessed data"
def nearCapacity : String :=
  "Cache is near capacity, consider increasing max_keys or reducing TTL"
def highMissRate : String := "High cache miss rate detected, review caching strategy"

/-- Advice by the figures. A bound on the number of entries that is beyond all doubles cannot be
compared with. -/
def recommendations (c : Cache τ α) : Except Overflow (List String) := do
  let room ← Decimal.nearest c.policy.maxKeys
  return (if c.counters.hitRate < 0.4 then [raiseTtl] else []) ++
    (if room * 0.9 < Decimal.ofInt c.size then [nearCapacity] else []) ++
    (if c.counters.hits < c.counters.misses then [highMissRate] else [])

end IssueSearch.Cache
