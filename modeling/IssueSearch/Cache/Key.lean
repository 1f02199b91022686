import IssueSearch.Digest
import IssueSearch.Json.Text
/-!
Cache keys: a domain, an endpoint and a short digest of the parameters' canonical text, with colons
between. Empty parameters have a word in place of the digest.
-/
namespace IssueSearch.Cache

def defaultDigest : String := "default"

/-- The last part of a key. -/
def paramsDigest (params : Json) : String :=
  if params.isFalsy then defaultDigest else Digest.short params.canonicalText

def key (domain endpoint : String) (params : Json) : String :=
  domain ++ ":" ++ endpoint ++ ":" ++ paramsDigest params

end IssueSearch.Cache
