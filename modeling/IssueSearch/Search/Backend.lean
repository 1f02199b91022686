import IssueSearch.Failure
import IssueSearch.Json.Basic
/-!
What a search asks of its backend, and a backend that holds its records in memory.
-/
namespace IssueSearch

/-- One call of the backend. -/
structure BackendCall where
  queryText : String
  fieldSelector : List String
  limit : Int
  offset : Nat
  orderBy : Option String
deriving DecidableEq, Repr

/-- Records in memory. The query text is not looked at: every call is answered by a slice. -/
structure RecordStore where
  records : List Json := []
  /-- If there is one, every call fails with it. -/
  failure : Option Failure := none

/-- The items from `offset` up to but not including `stop`; a negative `stop` counts from the
end. -/
def slice {α : Type} (xs : List α) (offset : Nat) (stop : Int) : List α :=
  let stop := if stop < 0 then stop + xs.length else stop
  (xs.take stop.toNat).drop offset

/-- What a store answers to a call. -/
def RecordStore.answer (s : RecordStore) (call : BackendCall) : Except Failure Json :=
  match s.failure with
  | some failure => .error failure
  | none => .ok (.arr (slice s.records call.offset (call.offset + call.limit)))

end IssueSearch
