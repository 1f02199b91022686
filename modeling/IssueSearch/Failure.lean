import IssueSearch.Decimal.Range
import IssueSearch.Text.Quoted
/-!
Failures of whoever supplies data: the backend of a search, or a fetcher that fills a cache.
-/
namespace IssueSearch

inductive FailureKind where
  | general | badValue | connection | missingKey | timeout | overflow
deriving DecidableEq, Repr

structure Failure where
  kind : FailureKind
  message : String
deriving DecidableEq, Repr

/-- A failure in running text: a missing key is shown as a literal. -/
def Failure.text (f : Failure) : String :=
  match f.kind with
  | .missingKey => Text.quoted f.message
  | _ => f.message

/-- The failure of work that took longer than a clock can tell. -/
def Failure.ofOverflow (cause : Overflow) : Failure := ⟨.overflow, cause.message⟩

end IssueSearch
