import IssueSearch.Search.Step
/-!
Searches run by turns against records in memory. Calls take turns in the order in which they were
started or woken; a turn lasts until its call has to wait. The backend can hold calls at a gate,
where they wait to be released one by one.

Everything that a call does goes through `Search.step`; a session only decides whose turn it is and
what the backend answers.
-/
namespace IssueSearch

namespace Session

open Search (CallId)

inductive Turn where
  /-- A call goes on. -/
  | run (id : CallId)
  /-- A follower is told that its leader is through, and gets a turn of its own. -/
  | relay (id : CallId)
deriving DecidableEq, Repr

/-- Seconds that a backend takes, if the clock can tell them. -/
abbrev Span := Except Overflow Float

/-- A call that waits at the gate, or the seconds that its answer took once it was released. -/
structure Gate where
  call : CallId
  took : Option Span := none

end Session

structure Session where
  search : Search := {}
  state : Search.State := {}
  store : RecordStore := {}
  /-- Answered in place of the store's records. -/
  override : Option Json := none
  /-- Whether the store keeps callers waiting before it answers. -/
  delayed : Bool := false
  gateOn : Bool := false
  /-- Calls that came to the gate, in order. -/
  gates : List Session.Gate := []
  /-- Calls that the store keeps waiting. -/
  asleep : List Search.CallId := []
  turns : List Session.Turn := []
  /-- Leaders with their followers, in the order in which those joined. -/
  joins : List (Search.CallId × Search.CallId) := []
  /-- Calls that reached the store, in order. -/
  executed : List BackendCall := []
  log : List LogRecord := []

namespace Session

open Search (CallId)

/-- Lets something happen to the searches. -/
def apply (s : Session) (event : Search.Event) : Session :=
  let (state, log) := s.search.step s.state event
  { s with state, log := s.log ++ log }

/-- Tells the cache to do something. -/
def tellCache (s : Session) (command : Cache.Command Search.Stored) :
    Cache.Reply Float Search.Stored × Session :=
  ((s.state.cache.step s.state.now command).1, s.apply (.cache command))

/-- Gives out another turn. -/
def push (s : Session) (turn : Turn) : Session := { s with turns := s.turns ++ [turn] }

/-- Tells the followers of a call that it is through. -/
def tellFollowers (s : Session) (id : CallId) : Session :=
  ((s.joins.filter (·.1 == id)).map fun join => Turn.relay join.2).foldl push s

/-- The store answers a call. -/
def answer (s : Session) (id : CallId) (call : BackendCall) : Session :=
  let answered := match s.store.answer call, s.override with
    | .ok _, some value => .ok value
    | answered, _ => answered
  ({ s with asleep := s.asleep.filter (· != id) }.apply (.reply id answered)).tellFollowers id

/-- A call reaches the store after so many seconds. It fails before if the clock cannot tell
them. -/
def reach (s : Session) (id : CallId) (call : BackendCall) (took : Span) : Session :=
  match took with
  | .error cause => (s.apply (.reply id (.error (.ofOverflow cause)))).tellFollowers id
  | .ok seconds =>
      let s := s.apply (.advance seconds)
      let s := { s with executed := s.executed ++ [call] }
      if s.delayed then { s with asleep := s.asleep ++ [id] } else s.answer id call

/-- What follows when a call has gone on: a new leader comes to the gate or reaches the store, a
new follower is noted, and the followers of a call that is through are told. -/
def attend (s : Session) (id : CallId) (took : Span) : Session :=
  match s.state.phase? id with
  | some (.leading sent) =>
      if s.gateOn then { s with gates := s.gates ++ [{ call := id }] }
      else s.reach id sent.call took
  | some (.following _ leader) => { s with joins := s.joins ++ [(leader, id)] }
  | some (.finished _) => s.tellFollowers id
  | _ => s

/-- A call's turn. -/
def runCall (s : Session) (id : CallId) (took : Span) : Session :=
  match s.state.calls[id]? with
  | some ⟨.leading sent, false⟩ =>
      if s.asleep.contains id then s.answer id sent.call
      else match s.gates.find? (·.call == id) with
        | some ⟨_, some took⟩ => s.reach id sent.call took
        | _ => s
  | some ⟨.finished _, _⟩ => s
  | some _ => ({ s with asleep := s.asleep.filter (· != id) }.apply (.resume id)).attend id took
  | none => s

/-- Whether a call waits for its leader and was not asked to end. -/
def isFollowing (s : Session) (id : CallId) : Bool :=
  match s.state.calls[id]? with
  | some ⟨.following _ _, false⟩ => true
  | _ => false

/-- One turn. -/
def take (s : Session) : Turn → Session
  | .run id => s.runCall id (.ok 0.0)
  | .relay id => if s.isFollowing id then s.push (.run id) else s

/-- Turns as long as there are any; when there are none, the store answers the call that it has
kept waiting longest. -/
def runTurns : (fuel : Nat) → Session → Session
  | 0, s => s
  | fuel + 1, s =>
      match s.turns, s.asleep with
      | turn :: rest, _ => runTurns fuel ({ s with turns := rest }.take turn)
      | [], id :: _ => runTurns fuel (s.runCall id (.ok 0.0))
      | [], [] => s

/-- Turns until nobody can go on. Every leader that is cancelled sends each other call through at
most two turns, and every call leads at most once. -/
def settle (s : Session) : Session :=
  let calls := s.state.calls.length + 1
  runTurns (2 * calls * (calls + 2) + s.turns.length) s

/-- A new call, which has not begun. -/
def arrive (s : Session) (input : Search.Input) : CallId × Session :=
  (s.state.calls.length, s.apply (.arrive input))

/-- Starts a call and gives it a turn. -/
def start (s : Session) (input : Search.Input) : CallId × Session :=
  let (id, s) := s.arrive input
  (id, s.push (.run id))

/-- Runs a call to its end at once, the backend taking so many seconds. -/
def execute (s : Session) (input : Search.Input) (took : Span) : CallId × Session :=
  let (id, s) := s.arrive input
  let s := s.runCall id took
  (id, if (s.state.outcome? id).isSome then s else s.settle)

/-- Whether a call has ended or was asked to. -/
def isLeaving (s : Session) (id : CallId) : Bool :=
  match s.state.calls[id]? with
  | some ⟨.finished _, _⟩ => true
  | some call => call.cancelRequested
  | none => true

/-- Lets the call at a place of the gate go on, to be answered after so many seconds, unless it was
released before or is leaving. There is nothing to release at a place that no call has come to. -/
def release? (s : Session) (place : Nat) (took : Span) : Option Session :=
  s.gates[place]?.map fun gate =>
    if gate.took.isSome || s.isLeaving gate.call then s
    else { s with gates := s.gates.set place { gate with took := some took } }.push (.run gate.call)

/-- Asks a call to end. -/
def cancel (s : Session) (id : CallId) : Session :=
  match s.state.calls[id]? with
  | none | some ⟨.finished _, _⟩ => s
  | some _ =>
      let s := s.apply (.cancel id)
      if s.turns.contains (.run id) then s else s.push (.run id)

end Session
end IssueSearch
