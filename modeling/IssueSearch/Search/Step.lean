import IssueSearch.Json.Text
import IssueSearch.Search.State
/-!
The steps of searches. A step lets one call go on as far as it can without waiting, or changes
what calls wait for: the backend answers a leader, a call is asked to end, the clock moves, the
cache is told to do something. `Search.step` is total; an event that does not apply changes
nothing. Any interleaving of calls is a list of events.
-/
namespace IssueSearch.Search

/-- How a call is accounted for. -/
inductive Account where
  | hit | success | failure | cancelled
deriving DecidableEq, Repr

def Account.name : Account → String
  | .hit => "hit"
  | .success => "success"
  | .failure => "error"
  | .cancelled => "cancelled"

def Account.isSuccess : Account → Bool
  | .hit | .success => true
  | _ => false

/-- The account of a leader that ends with an outcome. -/
def Account.ofOutcome : Outcome → Account
  | .returned _ => .success
  | .raised _ => .failure
  | .cancelled => .cancelled

/-- The name of the one operation that is accounted for. -/
def operation : String := "execute_query"

/-- The log line of an account. -/
def accountLine (key : String) (duration : Float) (account : Account) : String :=
  (Json.obj [
    ("operation", .str operation),
    ("outcome", .str account.name),
    ("cached", .bool (account == .hit)),
    ("duration_ms", .float (Decimal.roundTo 2 duration)),
    ("cache_key", .str key)]).lineText

/-- Milliseconds from one clock reading to another. -/
def milliseconds (start stop : Float) : Float := (stop - start) * 1000.0

/-- Accounts for a call in the monitor, the metrics and the log. -/
def State.account (s : State) (flight : Flight) (account : Account) : State × List LogRecord :=
  let duration := milliseconds flight.start s.now
  let cached := account == .hit
  let (monitor, slow) := match s.monitor with
    | none => (none, [])
    | some m =>
        let (m, log) := (m.trackLookup cached).trackSpan operation duration account.isSuccess cached
        (some m, log)
  let (metrics, lost) := match s.metrics with
    | none => (none, [])
    | some m =>
        let (m, log) := m.record { operation, outcome := account.name, cached } (.float duration)
        (some m, log)
  ({ s with monitor, metrics },
    slow ++ lost ++ [⟨.search, .info, accountLine flight.key duration account⟩])

/-- Ends a leader: its flight is over, and it is accounted for. -/
def State.land (s : State) (id : CallId) (flight : Flight) (outcome : Outcome) :
    State × List LogRecord :=
  let s := { s with inflight := s.inflight.filter (·.1 != flight.key) }
  (s.enter id (.finished outcome)).account flight (.ofOutcome outcome)

variable (search : Search)

def key (r : Request) : String :=
  Cache.key search.settings.cacheDomain search.settings.cacheEndpoint r.toJson

/-- The page size that the backend is asked for. -/
def limit (r : Request) : Int :=
  match r.pagination.limit with
  | some n => n.val
  | none => search.settings.defaultLimit

/-- The record fields that the backend is asked for. -/
def fields (r : Request) : List String :=
  match r.fieldSelector with
  | some (field :: rest) => field :: rest
  | _ => search.settings.defaultFields

def backendCall (r : Request) (query : Query) : BackendCall where
  queryText := query.text
  fieldSelector := search.fields r
  limit := search.limit r
  offset := r.pagination.offset.getD 0
  orderBy := query.orderBy

/-- Takes the lead of a key without flight: checks and compiles the request, and leaves the backend
call outstanding unless one of them fails. -/
def lead (s : State) (id : CallId) (flight : Flight) : State × List LogRecord :=
  let s := { s with inflight := (flight.key, id) :: s.inflight }
  let checked := Validation.ofRequest search.checks flight.request
  if checked.valid then
    let (warned, compiled) := Query.compile search.grammar flight.request
    let log := LogRecord.ofWarnings warned
    match compiled with
    | .ok query =>
        (s.enter id (.leading {
          flight, query
          call := search.backendCall flight.request query
          warnings := checked.warnings ++ query.warnings
          sentAt := s.now }), log)
    | .error e =>
        let (s, accounted) := s.land id flight (.raised (.uncompilable e))
        (s, log ++ accounted)
  else s.land id flight (.raised (.rejected checked.errors checked.warnings))

/-- Joins the flight of a key, or takes its lead. -/
def board (s : State) (id : CallId) (flight : Flight) : State × List LogRecord :=
  match s.inflight.lookup flight.key with
  | some leader =>
      (s.enter id (.following flight leader),
        [⟨.search, .debug, "Joining in-flight execution for " ++ flight.key⟩])
  | none => search.lead s id flight

/-- Looks the key of a request up, and boards a flight if no result is stored. -/
def begin (s : State) (id : CallId) (r : Request) : State × List LogRecord :=
  let flight : Flight := { key := search.key r, request := r, start := s.now }
  match s.cache.get? s.now flight.key with
  | .error cause => (s.enter id (.finished (.raised (.cache (.overflow cause)))), [])
  | .ok (found, cache) =>
      let s := { s with cache }
      match found with
      | none => search.board s id flight
      | some entry =>
          match entry.payload with
          | .result stored =>
              (s.enter id (.finished (.returned (stored.fromCache r)))).account flight .hit
          | .foreign _ =>
              let s := { s with cache := (s.cache.erase flight.key).2 }
              let (s, log) := search.board s id flight
              (s, ⟨.search, .warning,
                "Discarding unexpected cache payload for " ++ flight.key⟩ :: log)

/-- The request that a call hands over, or why it is none. -/
def requestOf : Input → Except SearchError Request
  | .request r => .ok r
  | .value raw =>
      let checked := Validation.ofJson search.checks raw
      match checked.valid, checked.request with
      | true, some r => .ok r
      | _, _ => .error (.rejected checked.errors checked.warnings)

/-- Lets a call go on: one that has not begun begins, one that was asked to end does, and a
follower whose leader is through takes its outcome, or boards again if the leader was cancelled. -/
def resume (s : State) (id : CallId) : State × List LogRecord :=
  match s.calls[id]? with
  | none => (s, [])
  | some call =>
      match call.phase, call.cancelRequested with
      | .ready _, true => (s.enter id (.finished .cancelled), [])
      | .ready input, false =>
          match search.requestOf input with
          | .ok r => search.begin s id r
          | .error e => (s.enter id (.finished (.raised e)), [])
      | .leading sent, true => s.land id sent.flight .cancelled
      | .leading _, false => (s, [])
      | .following _ _, true => (s.enter id (.finished .cancelled), [])
      | .following flight leader, false =>
          match s.outcome? leader with
          | none => (s, [])
          | some .cancelled =>
              let (s, log) := search.board s id flight
              (s, ⟨.search, .debug, "In-flight execution for " ++ flight.key ++
                " was cancelled, retrying"⟩ :: log)
          | some outcome => (s.enter id (.finished outcome), [])
      | .finished _, _ => (s, [])

/-- The result that records make, `now` being the time of the answer. -/
def resultOf (now : Float) (sent : Sent) (records : List Json) : SearchResult :=
  let elapsed := milliseconds sent.sentAt now
  let report := search.advise (.float elapsed) (.int records.length)
  let r := sent.flight.request
  { records
    includeMetadata := r.includeMetadata
    metadata := {
      totalCount := records.length
      hasMore := (records.length : Int) == sent.call.limit
      queryTime := Decimal.roundTo 2 elapsed
      filters := r.filters
      sorting := r.sorting
      compiledQuery := sent.query.text
      orderBy := sent.query.orderBy
      performanceClass := report.performanceClass
      suggestions := report.suggestions
      warnings := sent.warnings
      cached := false
      cacheKey := sent.flight.key } }

/-- Stores a result, and sweeps a cache that has grown past the threshold. -/
def keep (s : State) (key : String) (result : SearchResult) :
    Except Cache.Error Unit × State × List LogRecord :=
  let (stored, cache, log) := s.cache.insert s.now key (.result result) search.settings.resultTtl
  let s := { s with cache }
  match stored with
  | .error cause => (.error cause, s, log)
  | .ok _ =>
      if search.settings.sweepThreshold < (cache.size : Int) then
        match cache.sweep s.now with
        | .ok (_, cache, swept) => (.ok (), { s with cache }, log ++ swept)
        | .error cause => (.error (.overflow cause), s, log)
      else (.ok (), s, log)

/-- Takes in the backend's answer to a leader. A leader that was asked to end takes none. -/
def reply (s : State) (id : CallId) (answer : Except Failure Json) : State × List LogRecord :=
  match s.calls[id]? with
  | some ⟨.leading sent, false⟩ =>
      match answer with
      | .error failure => s.land id sent.flight (.raised (.backend failure))
      | .ok value =>
          match recordsOf value with
          | none => s.land id sent.flight (.raised (.notRecords value))
          | some records =>
              let result := search.resultOf s.now sent records
              let (kept, s, stored) := search.keep s sent.flight.key result
              let outcome : Outcome := match kept with
                | .ok _ => .returned result
                | .error cause => .raised (.cache cause)
              let (s, accounted) := s.land id sent.flight outcome
              (s, stored ++ accounted)
  | _ => (s, [])

/-- Asks a call to end. -/
def State.cancel (s : State) (id : CallId) : State :=
  { s with calls := s.calls.modify id fun call =>
      match call.phase with
      | .finished _ => call
      | _ => { call with cancelRequested := true } }

/-- What can happen to searches. -/
inductive Event where
  | arrive (input : Input)
  | resume (id : CallId)
  | reply (id : CallId) (answer : Except Failure Json)
  | cancel (id : CallId)
  | advance (seconds : Float)
  | cache (command : Cache.Command Stored)

def step (s : State) : Event → State × List LogRecord
  | .arrive input => ({ s with calls := s.calls ++ [{ phase := .ready input }] }, [])
  | .resume id => search.resume s id
  | .reply id answer => search.reply s id answer
  | .cancel id => (s.cancel id, [])
  | .advance seconds => ({ s with now := s.now + seconds }, [])
  | .cache command =>
      let (_, cache, log) := s.cache.step s.now command
      ({ s with cache }, log)

/-- The state after events in turn. -/
def run (s : State) (events : List Event) : State :=
  events.foldl (fun s event => (search.step s event).1) s

end IssueSearch.Search
