import IssueSearch.Number
/-!
How a search went by its time and the size of its result, with advice for the next one.
-/
namespace IssueSearch

inductive PerformanceClass where
  | excellent | good | fair | slow
deriving DecidableEq, Repr

def PerformanceClass.name : PerformanceClass → String
  | .excellent => "excellent"
  | .good => "good"
  | .fair => "fair"
  | .slow => "slow"

def PerformanceClass.all : List PerformanceClass := [.excellent, .good, .fair, .slow]

structure PerformanceReport where
  performanceClass : PerformanceClass
  suggestions : List String
deriving DecidableEq, Repr

namespace PerformanceReport

def narrowFilters : String := "Consider adding more specific filters to reduce result set"
def paginate : String := "Large result set detected - consider pagination"
def background : String := "Query is slow - consider using cached results or background processing"

/-- Each class ends just below its bound, in milliseconds: 1000, 3000 and 5000. -/
def classOf (elapsed : Number) : PerformanceClass :=
  if elapsed.lt (.int 1000) then .excellent
  else if elapsed.lt (.int 3000) then .good
  else if elapsed.lt (.int 5000) then .fair
  else .slow

/-- The report on a search that took so many milliseconds and found so many records. Each
suggestion has a condition of its own. -/
def classify (elapsed found : Number) : PerformanceReport where
  performanceClass := classOf elapsed
  suggestions :=
    (if (Number.int 3000).lt elapsed then [narrowFilters] else []) ++
      (if (Number.int 500).lt found then [paginate] else []) ++
      (if (Number.int 5000).lt elapsed then [background] else [])

end PerformanceReport
end IssueSearch
