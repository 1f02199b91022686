import IssueSearch.Filter.Basic
/-!
Structured search requests: filters to be combined with "and", a scope, a text to look for, sort
keys and the page wanted.
-/
namespace IssueSearch

inductive Direction where
  | ascending | descending
deriving DecidableEq, Repr

def Direction.name : Direction → String
  | .ascending => "asc"
  | .descending => "desc"

/-- The direction of a name. -/
def Direction.ofName? (text : String) : Option Direction :=
  if text = "asc" then some .ascending
  else if text = "desc" then some .descending
  else none

structure SortKey where
  field : String
  direction : Direction := .ascending
deriving DecidableEq, Repr

/-- The page wanted: how many records at most, and how many to skip. -/
structure Pagination where
  limit : Option { n : Nat // 1 ≤ n } := none
  offset : Option Nat := none
deriving DecidableEq, Repr

structure Request where
  /-- The container that the search is restricted to. -/
  scopeId : Option String := none
  /-- The clauses, all of which must hold. -/
  filters : List Filter := []
  /-- A free-text token. -/
  textSearch : Option String := none
  sorting : List SortKey := []
  pagination : Pagination := {}
  /-- The record fields to fetch, if not the usual ones. -/
  fieldSelector : Option (List String) := none
  /-- Whether the answer's body shows metadata. -/
  includeMetadata : Bool := false
deriving DecidableEq

end IssueSearch
