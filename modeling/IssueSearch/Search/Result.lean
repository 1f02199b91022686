import IssueSearch.Cache.Basic
import IssueSearch.Failure
import IssueSearch.Performance
import IssueSearch.Query.Compile
import IssueSearch.Request.Writing
/-!
What a search comes back with: records and what is known about how they were found, or an error.
-/
namespace IssueSearch

/-- How a result was found. -/
structure SearchMetadata where
  totalCount : Nat
  /-- Whether the page is full, so that there may be another. -/
  hasMore : Bool
  /-- Milliseconds that the backend took, with two decimal places. -/
  queryTime : Float
  filters : List Filter
  sorting : List SortKey
  compiledQuery : String
  orderBy : Option String
  performanceClass : PerformanceClass
  suggestions : List String
  warnings : List String
  cached : Bool
  cacheKey : String

structure SearchResult where
  records : List Json
  metadata : SearchMetadata
  includeMetadata : Bool

/-- Metadata as the body of an answer shows them. -/
def SearchMetadata.toJson (m : SearchMetadata) : Json :=
  .obj [
    ("totalCount", .int m.totalCount),
    ("hasMore", .bool m.hasMore),
    ("queryTimeMs", .float m.queryTime),
    ("filters", .arr (m.filters.map Filter.toJson)),
    ("sorting", .arr (m.sorting.map SortKey.toJson)),
    ("compiledQuery", .str m.compiledQuery),
    ("orderBy", Json.ofOption .str m.orderBy),
    ("performanceClass", .str m.performanceClass.name),
    ("suggestions", .arr (m.suggestions.map .str)),
    ("warnings", .arr (m.warnings.map .str)),
    ("cached", .bool m.cached),
    ("cacheKey", .str m.cacheKey)]

/-- The body of an answer; metadata are in it only when they were asked for. -/
def SearchResult.payload (r : SearchResult) : Json :=
  .obj ([("success", .bool true), ("issues", .arr r.records)] ++
    if r.includeMetadata then [("metadata", r.metadata.toJson)] else [])

/-- A stored result as it is given to a later request. -/
def SearchResult.fromCache (r : SearchResult) (request : Request) : SearchResult :=
  { r with
    metadata := { r.metadata with cached := true }
    includeMetadata := request.includeMetadata }

/-- Why a search has no result. -/
inductive SearchError where
  /-- The checks found errors. -/
  | rejected (errors warnings : List String)
  | uncompilable (cause : ClauseError)
  | backend (failure : Failure)
  /-- The backend answered with something that is no sequence of records. -/
  | notRecords (answer : Json)
  | cache (cause : Cache.Error)

/-- What is said of a request with errors. -/
def rejectionMessage (errors : List String) : String :=
  "Query validation failed: " ++ "; ".intercalate errors

def SearchError.message : SearchError → String
  | .rejected errors _ => rejectionMessage errors
  | .uncompilable cause => cause.message
  | .backend failure => failure.text
  | .notRecords answer => "'" ++ answer.kindName ++ "' object is not iterable"
  | .cache cause => cause.message

/-- How a search ended. -/
inductive Outcome where
  | returned (result : SearchResult)
  | raised (error : SearchError)
  | cancelled

/-- The records in a backend's answer; an empty value of any kind holds none. -/
def recordsOf (answer : Json) : Option (List Json) :=
  if answer.isFalsy then some [] else answer.elements?

end IssueSearch
