import IssueSearch.Json.Text
/-!
The settings of a cache: how long entries live, how many there may be, and how often expired ones
are swept out. A time to live is a positive number of whole seconds.
-/
namespace IssueSearch.Cache

/-- A value that is no time to live. -/
structure InvalidTtl where
  given : Json

def InvalidTtl.message (e : InvalidTtl) : String :=
  "TTL must be a positive integer number of seconds, got " ++ e.given.literal

/-- The time to live that a value gives. -/
def ttlOf : Json → Except InvalidTtl { n : Int // 0 < n }
  | .int n => if h : 0 < n then .ok ⟨n, h⟩ else .error ⟨.int n⟩
  | value => .error ⟨value⟩

structure Policy where
  /-- For keys whose domain has no time to live of its own. -/
  defaultTtl : Int := 300
  /-- The number of entries that there is room for. -/
  maxKeys : Nat := 1000
  /-- The number of stores from one sweep to the next. -/
  sweepInterval : Nat := 100
  /-- Times to live by domain. -/
  domainTtls : List (String × Int) := [
    ("issues", 180), ("projects", 900), ("users", 1800), ("articles", 600),
    ("agile", 120), ("workitems", 300), ("admin", 3600), ("customfields", 1800)]
  defaultTtl_pos : 0 < defaultTtl := by decide
  maxKeys_pos : 0 < maxKeys := by decide
  sweepInterval_pos : 0 < sweepInterval := by decide
  domainTtls_pos : ∀ entry ∈ domainTtls, 0 < entry.2 := by decide

namespace Policy

/-- Why settings make no policy. -/
inductive Error where
  | ttl (cause : InvalidTtl)
  | maxKeys
  | sweepInterval

def Error.message : Error → String
  | .ttl cause => cause.message
  | .maxKeys => "max_keys must be at least 1"
  | .sweepInterval => "sweep_interval must be at least 1"

/-- Times to live by domain; the first invalid one is reported. -/
def domainTable : List (String × Json) →
    Except InvalidTtl { table : List (String × Int) // ∀ entry ∈ table, 0 < entry.2 }
  | [] => .ok ⟨[], by simp⟩
  | (domain, value) :: rest => do
      let ttl ← ttlOf value
      let table ← domainTable rest
      return ⟨(domain, ttl.val) :: table.val, by
        intro entry mem
        rcases List.mem_cons.1 mem with rfl | mem
        · exact ttl.property
        · exact table.property entry mem⟩

/-- A policy from settings, checked in order. -/
def make (defaultTtl : Json) (maxKeys sweepInterval : Int) (domainTtls : List (String × Json)) :
    Except Error Policy := do
  let ttl ← (ttlOf defaultTtl).mapError .ttl
  if hk : 1 ≤ maxKeys then
    if hs : 1 ≤ sweepInterval then
      let table ← (domainTable domainTtls).mapError .ttl
      return {
        defaultTtl := ttl.val
        maxKeys := maxKeys.toNat
        sweepInterval := sweepInterval.toNat
        domainTtls := table.val
        defaultTtl_pos := ttl.property
        maxKeys_pos := by omega
        sweepInterval_pos := by omega
        domainTtls_pos := table.property }
    else .error .sweepInterval
  else .error .maxKeys

end Policy

/-- The domain of a key: its characters up to the first colon. -/
def domainOf (key : String) : String := String.ofList (key.toList.takeWhile (· != ':'))

/-- The time to live of a key by its domain. -/
def Policy.ttlFor (p : Policy) (key : String) : Int :=
  (p.domainTtls.lookup (domainOf key)).getD p.defaultTtl

/-- The time to live of a key: the one asked for if there is one, else by domain. -/
def Policy.resolveTtl (p : Policy) (key : String) : Json → Except InvalidTtl Int
  | .null => .ok (p.ttlFor key)
  | value => (ttlOf value).map Subtype.val

end IssueSearch.Cache
