import IssueSearch.Query.Clause
import IssueSearch.Request.Basic
/-!
Requests as query text: the scope, one clause for each filter in order, and the free text, with a
space between. Sort keys are written apart from the query.
-/
namespace IssueSearch

/-- A compiled request. -/
structure Query where
  text : String
  orderBy : Option String
  warnings : List String
deriving DecidableEq, Repr

namespace Query

/-- The clauses up to the first filter that has none, and why it has none. -/
def clauses (g : Grammar) : List Filter → List Clause × Option ClauseError
  | [] => ([], none)
  | f :: rest =>
      match g.clause f with
      | .error e => ([], some e)
      | .ok c =>
          let found := clauses g rest
          (c :: found.1, found.2)

/-- What the clauses warn of, in order. -/
def warningsOf (cs : List Clause) : List String :=
  cs.filterMap fun c => c.dropped.map Dropped.message

/-- A text that is there and not empty. -/
def nonempty? (text : Option String) : Option String := text.filter fun s => !s.isEmpty

def scopePart (g : Grammar) (r : Request) : List String :=
  (nonempty? r.scopeId).toList.map fun scope => g.scopeField ++ ": " ++ scope

def textPart (r : Request) : List String :=
  (nonempty? r.textSearch).toList.map fun token => "#" ++ token

/-- Sort keys with their directions; none when there are no keys. -/
def orderOf (keys : List SortKey) : Option String :=
  if keys.isEmpty then none
  else some (", ".intercalate (keys.map fun k => k.field ++ " " ++ k.direction.name))

/-- The warnings met up to the end or the first failure, and the query or that failure. -/
def compile (g : Grammar) (r : Request) : List String × Except ClauseError Query :=
  let found := clauses g r.filters
  let warned := warningsOf found.1
  match found.2 with
  | some e => (warned, .error e)
  | none =>
      let parts := scopePart g r ++ found.1.map Clause.text ++ textPart r
      (warned, .ok ⟨" ".intercalate parts, orderOf r.sorting, warned⟩)

/-- The compiled request, or why there is none. -/
def ofRequest (g : Grammar) (r : Request) : Except ClauseError Query := (compile g r).2

end Query
end IssueSearch
