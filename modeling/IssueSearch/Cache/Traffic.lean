import IssueSearch.Cache.ReadThrough
/-!
Calls through a cache, several of them on their way at once. A call that the cache does not answer
waits for the fetcher, which comes back to it in its own time; meanwhile other calls come in, and
the cache may be told to do other things.

`Traffic.step` lets one thing happen at one clock reading. What does not apply changes nothing.
-/
namespace IssueSearch.Cache

namespace Traffic

/-- What a call hands over. -/
structure Args where
  positional : List Json := []
  named : List (String × Json) := []

/-- How a call ends. -/
inductive End (α : Type) where
  | cached (payload : α)
  | fetched (payload : α)
  | failed (error : ReadThrough.Error)

inductive Phase (α : Type) where
  /-- Waiting for the fetcher. -/
  | fetching
  | ended (result : End α)

structure Call (α : Type) where
  args : Args
  phase : Phase α

/-- Calls are numbered in order of arrival. -/
abbrev CallId := Nat

end Traffic

structure Traffic (τ α : Type) where
  cache : Cache τ α := {}
  /-- Every call that has come in, at the position of its number. -/
  calls : List (Traffic.Call α) := []
  /-- The calls of the fetcher in order: on whose behalf, and with what. -/
  fetches : List (Traffic.CallId × Traffic.Args) := []

namespace Traffic

variable {τ α : Type} [Timeline τ]

/-- What can happen. -/
inductive Event (α : Type) where
  | call (args : Args)
  /-- The fetcher comes back to a call. -/
  | back (id : CallId) (answer : Except Failure α)
  | tell (command : Command α)

def key (w : ReadThrough) (args : Args) : String := w.key args.positional args.named

/-- The traffic with another call. -/
def enter (t : Traffic τ α) (args : Args) (phase : Phase α) : Traffic τ α :=
  { t with calls := t.calls ++ [{ args, phase }] }

/-- The traffic with a call at its end. -/
def close (t : Traffic τ α) (id : CallId) (result : End α) : Traffic τ α :=
  { t with calls := t.calls.modify id fun call => { call with phase := .ended result } }

/-- A call comes in: the cache answers it, or it calls the fetcher. -/
def begin (w : ReadThrough) (t : Traffic τ α) (now : τ) (args : Args) : Traffic τ α :=
  match ReadThrough.begin? t.cache now (key w args) with
  | .error cause => t.enter args (.ended (.failed (.cache (.overflow cause))))
  | .ok (some payload, cache) => { t with cache }.enter args (.ended (.cached payload))
  | .ok (none, cache) =>
      { t with cache, fetches := t.fetches ++ [(t.calls.length, args)] }.enter args .fetching

/-- The fetcher comes back to a call that waits for it. What it brings is stored. -/
def back (w : ReadThrough) (t : Traffic τ α) (now : τ) (id : CallId)
    (answer : Except Failure α) : Traffic τ α × List LogRecord :=
  match t.calls[id]? with
  | some ⟨args, .fetching⟩ =>
      match answer with
      | .error failure => (t.close id (.failed (.fetch failure)), [])
      | .ok payload =>
          let (finished, cache, log) := w.finish t.cache now (key w args) payload
          let result := match finished with
            | .ok _ => End.fetched payload
            | .error cause => .failed (.cache cause)
          ({ t with cache }.close id result, log)
  | _ => (t, [])

def step (w : ReadThrough) (t : Traffic τ α) (now : τ) :
    Event α → Traffic τ α × List LogRecord
  | .call args => (t.begin w now args, [])
  | .back id answer => t.back w now id answer
  | .tell command =>
      let (_, cache, log) := t.cache.step now command
      ({ t with cache }, log)

/-- The traffic after events in turn, each at its clock reading. -/
def run (w : ReadThrough) (t : Traffic τ α) (events : List (τ × Event α)) : Traffic τ α :=
  events.foldl (fun t event => (t.step w event.1 event.2).1) t

end Traffic
end IssueSearch.Cache
