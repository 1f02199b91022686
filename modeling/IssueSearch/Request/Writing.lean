import IssueSearch.Filter.Writing
import IssueSearch.Request.Basic
/-!
Requests written as JSON objects by wire names. A request's object is also what its cache key is
made from.
-/
namespace IssueSearch

/-- A value that may be left out. -/
def Json.ofOption {α : Type} (write : α → Json) : Option α → Json
  | none => .null
  | some a => write a

def SortKey.toJson (k : SortKey) : Json :=
  .obj [("field", .str k.field), ("direction", .str k.direction.name)]

def Pagination.toJson (p : Pagination) : Json :=
  .obj [("limit", Json.ofOption (fun n => .int n.val) p.limit),
    ("offset", Json.ofOption (fun (n : Nat) => .int n) p.offset)]

def Request.toJson (r : Request) : Json :=
  .obj [
    ("scopeId", Json.ofOption .str r.scopeId),
    ("filters", .arr (r.filters.map Filter.toJson)),
    ("textSearch", Json.ofOption .str r.textSearch),
    ("sorting", .arr (r.sorting.map SortKey.toJson)),
    ("pagination", r.pagination.toJson),
    ("fieldSelector", Json.ofOption (fun fields => .arr (fields.map .str)) r.fieldSelector),
    ("includeMetadata", .bool r.includeMetadata)]

end IssueSearch
