import IssueSearch.Cache.Basic
import IssueSearch.Cache.Key
import IssueSearch.Metrics
import IssueSearch.Monitor.Basic
import IssueSearch.Search.Backend
import IssueSearch.Search.Result
import IssueSearch.Validation
/-!
Searches that share a cache, and the calls on their way through them. Calls for one key that miss
the cache at the same time share one flight: the first leads it and calls the backend, the others
follow and take what the leader ends with.
-/
namespace IssueSearch

namespace Search

structure Settings where
  /-- The first two parts of cache keys. -/
  cacheDomain : String := "issues"
  cacheEndpoint : String := "query"
  /-- Seconds that results are kept. -/
  resultTtl : Json := .int 60
  /-- The page size of a request that names none. -/
  defaultLimit : Int := 100
  /-- The record fields of a request that names none. -/
  defaultFields : List String := [
    "id", "idReadable", "summary", "description", "project(id,shortName,name)",
    "reporter(login,fullName)", "created", "updated",
    "customFields(name,value(name,presentation))", "tags(name)", "commentsCount"]
  /-- With more entries than this in the cache, expired ones are swept after each store. -/
  sweepThreshold : Int := 100

end Search

/-- How searches are carried out. -/
structure Search where
  settings : Search.Settings := {}
  grammar : Grammar := {}
  checks : Validation.Settings := { scopeField := grammar.scopeField }
  /-- Judges a search by its milliseconds and the number of its records. -/
  advise : Number → Number → PerformanceReport := PerformanceReport.classify

namespace Search

/-- What a call hands over: a request, or a value to read one from. -/
inductive Input where
  | value (raw : Json)
  | request (r : Request)

/-- Calls are numbered in order of arrival. -/
abbrev CallId := Nat

/-- What a call knows once it has looked its key up. -/
structure Flight where
  key : String
  request : Request
  /-- When the key was looked up. -/
  start : Float

/-- What a leader knows while the backend works. -/
structure Sent where
  flight : Flight
  query : Query
  call : BackendCall
  /-- What the checks and the compiler warned of. -/
  warnings : List String
  sentAt : Float

inductive Phase where
  /-- Not begun. -/
  | ready (input : Input)
  /-- Leading a flight, with one backend call outstanding. -/
  | leading (sent : Sent)
  /-- Waiting for the call that leads the flight. -/
  | following (flight : Flight) (leader : CallId)
  | finished (outcome : Outcome)

structure Call where
  phase : Phase
  cancelRequested : Bool := false

/-- What is stored under a key: a result, or something that is none of ours. -/
inductive Stored where
  | result (r : SearchResult)
  | foreign (value : Json)

structure State where
  cache : Cache Float Stored := {}
  monitor : Option Monitor := none
  metrics : Option Metrics := none
  /-- The clock, in seconds. -/
  now : Float := 1000.0
  /-- Every call that has arrived, at the position of its number. -/
  calls : List Call := []
  /-- The leader of each key that has a flight. -/
  inflight : List (String × CallId) := []

namespace State

def phase? (s : State) (id : CallId) : Option Phase := s.calls[id]?.map Call.phase

/-- The state with a call in another phase. -/
def enter (s : State) (id : CallId) (phase : Phase) : State :=
  { s with calls := s.calls.modify id fun call => { call with phase } }

/-- How a call ended, if it has. -/
def outcome? (s : State) (id : CallId) : Option Outcome :=
  match s.phase? id with
  | some (.finished outcome) => some outcome
  | _ => none

end State
end Search
end IssueSearch
