import IssueSearch.Search.Session
import IssueSearch.Cache.ReadThrough
import IssueSearch.Cache.Stats
import IssueSearch.Cache.WarmUp
import IssueSearch.Guide
import IssueSearch.Monitor.Stats
import IssueSearch.Decimal.Reading
import IssueSearch.ErrorBody
import IssueSearch.Json.Reading
import IssueSearch.Proofs.Search.SingleFlight
import IssueSearch.Proofs.Decimal.Alphabet
import IssueSearch.Proofs.Json.Quoting
import IssueSearch.Proofs.Json.Reordering
import IssueSearch.Proofs.Cache.Key
import IssueSearch.Proofs.Request.Alike
import IssueSearch.Proofs.Query.Clauses
import IssueSearch.Proofs.Cache.Entries
import IssueSearch.Proofs.Query.Alike
import IssueSearch.Proofs.Search.Fetch
import IssueSearch.Proofs.Search.Turn
import IssueSearch.Proofs.Search.Hits
import IssueSearch.Proofs.Query.Meaning
import IssueSearch.Proofs.Query.Reading
import IssueSearch.Proofs.Query.Conjunction
import IssueSearch.Proofs.Cache.Expiry
import IssueSearch.Proofs.Cache.History
import IssueSearch.Proofs.Cache.Lookup
import IssueSearch.Proofs.Cache.Passing
import IssueSearch.Proofs.Cache.TimedMap
import IssueSearch.Proofs.Request.RoundTrip
import IssueSearch.Proofs.Cache.Books
import IssueSearch.Proofs.Cache.Living
import IssueSearch.Proofs.Search.Coalescing
import IssueSearch.Proofs.Search.Looking
import IssueSearch.Proofs.Search.Rerun
import IssueSearch.Proofs.Cache.Alike
import IssueSearch.Proofs.Search.Attempt
import IssueSearch.Proofs.Search.Repetition
import IssueSearch.Proofs.Search.Atomicity
import IssueSearch.Proofs.Search.Entrances
import IssueSearch.Proofs.Query.Containment
import IssueSearch.Proofs.Search.Invalidation
import IssueSearch.Proofs.Search.Accounts
import IssueSearch.Proofs.Search.Paging
import IssueSearch.Proofs.Search.Calm
import IssueSearch.Proofs.Search.Independence
import IssueSearch.Proofs.Query.Token
import IssueSearch.Proofs.Query.Failure
import IssueSearch.Proofs.Query.Rendering
import IssueSearch.Proofs.Search.Sharing
import IssueSearch.Proofs.Search.Crossing
import IssueSearch.Proofs.Query.Negation
import IssueSearch.Proofs.Query.ScopeWarning
import IssueSearch.Proofs.Cache.Domains
import IssueSearch.Proofs.Query.Ranges
import IssueSearch.Proofs.Query.Lists
import IssueSearch.Proofs.Cache.Queue
import IssueSearch.Proofs.Cache.WarmUp
import IssueSearch.Proofs.Request.Spelling
import IssueSearch.Proofs.Search.Upkeep
import IssueSearch.Proofs.Cache.Serving
import IssueSearch.Proofs.Ranking.Sort
import IssueSearch.Monitor.Watch
import IssueSearch.Proofs.Monitor.Measuring
import IssueSearch.Metrics.Client
import IssueSearch.Proofs.Metrics.Counting
