import IssueSearch.Cache.Basic
import IssueSearch.Proofs.Cache.Key
import Mathlib.Data.List.Infix
import Mathlib.Data.List.TakeWhile
/-!
What the invalidation of a domain removes. Times to live go by the first segment of a key, and keys
are taken apart at their colons. Invalidation looks for the domain with a colon behind it anywhere
in a key, so it removes the keys in which any segment but the last ends with the domain. Of the keys
of the domain these are all that hold a colon; of other keys, those whose domain or endpoint ends
with the same letters.
-/
namespace IssueSearch

namespace Text

theorem occursIn_iff {part whole : List Char} : occursIn part whole = true ↔ part <:+: whole := by
  induction whole with
  | nil => rw [occursIn, List.isEmpty_iff, List.infix_nil]
  | cons c rest ih =>
      rw [occursIn, Bool.or_eq_true, ih, List.isPrefixOf_iff_prefix, List.infix_cons_iff]

end Text

namespace Cache

/-- The parts of a key between its colons. -/
def segments (key : String) : List (List Char) := key.toList.splitOn ':'

/-- Whether a key holds a segment with a colon behind it that ends with the name of a domain. -/
def Reaches (domain key : String) : Prop :=
  ∃ segment ∈ (segments key).dropLast, domain.toList <:+ segment

instance (domain key : String) : Decidable (Reaches domain key) :=
  inferInstanceAs (Decidable (∃ segment ∈ (segments key).dropLast, domain.toList <:+ segment))

/-- A text behind the first colon of another occurs in it where it ends what stands before that
colon, or further on. -/
theorem append_colon_infix_iff {part first rest : List Char} (hpart : ':' ∉ part)
    (hfirst : ':' ∉ first) : part ++ [':'] <:+: first ++ ':' :: rest ↔
      part <:+ first ∨ part ++ [':'] <:+: rest := by
  constructor
  · rintro ⟨before, after, heq⟩
    by_cases hbefore : ':' ∈ before
    · obtain ⟨earlier, later, rfl, hearlier⟩ := List.eq_append_cons_of_mem hbefore
      have hsplit : earlier ++ ':' :: (later ++ (part ++ [':']) ++ after) =
          first ++ ':' :: rest := by
        simpa using heq
      exact .inr ⟨later, after, (append_colon_inj hearlier hfirst hsplit).2⟩
    · have hsplit : (before ++ part) ++ ':' :: after = first ++ ':' :: rest := by
        simpa using heq
      have hfront : ':' ∉ before ++ part := by simp [hbefore, hpart]
      exact .inl ⟨before, (append_colon_inj hfront hfirst hsplit).1⟩
  · rintro (⟨before, rfl⟩ | hrest)
    · exact ⟨before, rest, by simp⟩
    · exact hrest.trans ⟨first ++ [':'], [], by simp⟩

/-- A text with a colon behind it occurs in another exactly if it ends a segment that a colon
ends. -/
theorem infix_iff_segment {part : List Char} (hpart : ':' ∉ part) (text : List Char) :
    part ++ [':'] <:+: text ↔ ∃ segment ∈ (text.splitOn ':').dropLast, part <:+ segment := by
  by_cases hcolon : ':' ∈ text
  · obtain ⟨first, rest, rfl, hfirst⟩ := List.eq_append_cons_of_mem hcolon
    rw [append_colon_infix_iff hpart hfirst, infix_iff_segment hpart rest,
      List.splitOn_append_cons_self_of_not_mem hfirst,
      List.dropLast_cons_of_ne_nil (List.splitOn_ne_nil ':' rest), List.exists_mem_cons_iff]
  · rw [List.splitOn_eq_singleton hcolon]
    refine iff_of_false (fun hinfix => hcolon ?_) (by simp)
    exact hinfix.mem (by simp)
termination_by text.length

theorem occursIn_iff_reaches {domain : String} (hdomain : ':' ∉ domain.toList) (key : String) :
    Text.occursIn (domain ++ ":").toList key.toList = true ↔ Reaches domain key := by
  rw [Text.occursIn_iff, String.toList_append]
  exact infix_iff_segment hdomain key.toList

/-- The first colon of a key ends its domain. -/
theorem domainOf_append {key : String} {first rest : List Char}
    (hkey : key.toList = first ++ ':' :: rest) (hfirst : ':' ∉ first) :
    domainOf key = String.ofList first := by
  have hall : ∀ c ∈ first, (c != ':') = true := by
    intro c hc
    rw [bne_iff_ne]
    rintro rfl
    exact hfirst hc
  rw [domainOf, hkey, List.takeWhile_append_of_pos hall]
  simp

theorem domainOf_of_not_mem {key : String} (hkey : ':' ∉ key.toList) : domainOf key = key := by
  have hall : ∀ c ∈ key.toList, (c != ':') = true := by
    intro c hc
    rw [bne_iff_ne]
    rintro rfl
    exact hkey hc
  rw [domainOf, List.takeWhile_eq_self_iff.2 hall, String.ofList_toList]

/-- A domain reaches each of its keys but the one that is nothing but its name. -/
theorem reaches_domainOf_iff (key : String) : Reaches (domainOf key) key ↔ key ≠ domainOf key := by
  by_cases hcolon : ':' ∈ key.toList
  · obtain ⟨first, rest, hkey, hfirst⟩ := List.eq_append_cons_of_mem hcolon
    have hdomain : (domainOf key).toList = first := by
      rw [domainOf_append hkey hfirst, String.toList_ofList]
    refine iff_of_true ⟨first, ?_, by rw [hdomain]⟩ fun heq => ?_
    · rw [segments, hkey, List.splitOn_append_cons_self_of_not_mem hfirst,
        List.dropLast_cons_of_ne_nil (List.splitOn_ne_nil ':' rest)]
      exact List.mem_cons_self
    · rw [heq, hdomain] at hcolon
      exact hfirst hcolon
  · refine iff_of_false ?_ (not_not.2 (domainOf_of_not_mem hcolon).symm)
    rintro ⟨segment, hmem, -⟩
    rw [segments, List.splitOn_eq_singleton hcolon] at hmem
    cases hmem

/-- A domain reaches the keys that are made for a domain or an endpoint whose name ends with its
own. -/
theorem reaches_key_iff {domain other endpoint : String} (hother : ':' ∉ other.toList)
    (hendpoint : ':' ∉ endpoint.toList) (params : Json) :
    Reaches domain (key other endpoint params) ↔
      domain.toList <:+ other.toList ∨ domain.toList <:+ endpoint.toList := by
  have hsegments : segments (key other endpoint params) =
      [other.toList, endpoint.toList, (paramsDigest params).toList] := by
    have hkey : (key other endpoint params).toList =
        other.toList ++ ':' :: (endpoint.toList ++ ':' :: (paramsDigest params).toList) := by
      simp [key]
    rw [segments, hkey, List.splitOn_append_cons_self_of_not_mem hother,
      List.splitOn_append_cons_self_of_not_mem hendpoint,
      List.splitOn_eq_singleton (colon_notMem_paramsDigest params)]
  rw [Reaches, hsegments]
  simp

/-- A domain reaches just its own keys among those that are not its name alone. -/
theorem reaches_iff_domainOf {domain key : String} (hdomain : ':' ∉ domain.toList) :
    (Reaches domain key ↔ domainOf key = domain) ↔
      key ≠ domain ∧ (Reaches domain key → domainOf key = domain) := by
  constructor
  · intro hreaches
    refine ⟨?_, hreaches.1⟩
    rintro rfl
    have hown := reaches_domainOf_iff key
    rw [domainOf_of_not_mem hdomain] at hown hreaches
    exact hown.1 (hreaches.2 rfl) rfl
  · rintro ⟨hkey, hforeign⟩
    refine ⟨hforeign, ?_⟩
    rintro rfl
    exact (reaches_domainOf_iff key).2 hkey

theorem filter_eq_filter_iff {α : Type} {p q : α → Bool} {xs : List α} :
    xs.filter p = xs.filter q ↔ ∀ x ∈ xs, p x = q x := by
  refine ⟨fun heq x hx => ?_, List.filter_congr⟩
  have hmem : x ∈ xs.filter p ↔ x ∈ xs.filter q := by rw [heq]
  rw [Bool.eq_iff_iff]
  simpa [List.mem_filter, hx] using hmem

variable {τ α : Type}

/-- What the invalidation of a domain does to a cache. -/
structure Invalidates (c : Cache τ α) (domain : String) : Prop where
  /-- The entries with the keys that the domain reaches are removed and counted; nothing else
  changes, and what is left keeps its order. -/
  result : (c.invalidateDomain domain).2.1 = { c with
    entries := c.entries.filter fun e => !decide (Reaches domain e.key)
    counters.deletes := c.counters.deletes + (c.invalidateDomain domain).1 }
  count : (c.invalidateDomain domain).1 =
    (c.entries.filter fun e => decide (Reaches domain e.key)).length
  /-- The keys of the domain are reached if there is a colon in them. -/
  own : ∀ key, domainOf key = domain → (Reaches domain key ↔ key ≠ domain)
  /-- Of the keys that are made for a domain and an endpoint, some of other domains are reached. -/
  made : ∀ other endpoint params, ':' ∉ other.toList → ':' ∉ endpoint.toList →
    (Reaches domain (key other endpoint params) ↔
      domain.toList <:+ other.toList ∨ domain.toList <:+ endpoint.toList)
  /-- Just the entries of the domain are removed exactly if no key is nothing but its name, and no
  key of another domain is reached. -/
  exact_iff : (c.invalidateDomain domain).2.1.entries =
      c.entries.filter (fun e => domainOf e.key != domain) ↔
    ∀ e ∈ c.entries, e.key ≠ domain ∧ (Reaches domain e.key → domainOf e.key = domain)

theorem invalidateDomain_invalidates {domain : String} (hdomain : ':' ∉ domain.toList)
    (c : Cache τ α) : Invalidates c domain := by
  have hkept : ∀ e : Entry τ α, (!Text.occursIn (domain ++ ":").toList e.key.toList) =
      !decide (Reaches domain e.key) := by
    intro e
    rw [Bool.not_inj_iff, Bool.eq_iff_iff, occursIn_iff_reaches hdomain, decide_eq_true_iff]
  have hentries : (c.invalidateDomain domain).2.1.entries =
      c.entries.filter fun e => !decide (Reaches domain e.key) := by
    exact List.filter_congr fun e _ => hkept e
  refine ⟨?_, ?_, ?_, fun other endpoint params hother hendpoint =>
    reaches_key_iff hother hendpoint params, ?_⟩
  · rw [← hentries]
    rfl
  · have hlength := List.length_eq_length_filter_add (l := c.entries)
      fun e => decide (Reaches domain e.key)
    have hcount : (c.invalidateDomain domain).1 =
        c.entries.length - (c.invalidateDomain domain).2.1.entries.length := rfl
    rw [hcount, hentries]
    omega
  · rintro key rfl
    exact reaches_domainOf_iff key
  · rw [hentries, filter_eq_filter_iff]
    refine forall₂_congr fun e _ => ?_
    rw [← reaches_iff_domainOf hdomain, Bool.eq_iff_iff]
    simp [not_iff_not]

/-- Entries of which three hold the word "issues" with a colon behind it. -/
def fiveKeys (policy : Policy) : Cache Int Unit where
  policy
  entries := ["projects:list:a", "issues:list:b", "subissues:get:c", "users:issues:default",
    "issues"].map fun key => { key, payload := (), createdAt := 0, ttl := 60 }

/-- Entries of other domains are removed as well, and the one whose key is the name alone is not. -/
theorem invalidateDomain_invalidates_fiveKeys :
    ':' ∉ "issues".toList ∧
    ((fiveKeys {}).invalidateDomain "issues").2.1.keys = ["projects:list:a", "issues"] ∧
    ((fiveKeys {}).invalidateDomain "issues").1 = 3 ∧
    ((fiveKeys {}).invalidateDomain "issues").2.1.counters.deletes = 3 ∧
    ((fiveKeys {}).invalidateDomain "issues").2.1.entries ≠
      (fiveKeys {}).entries.filter (fun e => domainOf e.key != "issues") ∧
    ¬ Reaches "issues" "issues" := by
  have hdomain : ':' ∉ "issues".toList := by decide
  have hinvalidates := invalidateDomain_invalidates hdomain (fiveKeys {})
  refine ⟨hdomain, ?_, ?_, ?_, ?_, ?_⟩
  · rw [hinvalidates.result]
    decide +kernel
  · rw [hinvalidates.count]
    decide +kernel
  · rw [hinvalidates.result, hinvalidates.count]
    decide +kernel
  · rw [ne_eq, hinvalidates.exact_iff]
    decide +kernel
  · rw [hinvalidates.own "issues" (by decide +kernel)]
    exact not_not.2 rfl

end Cache
end IssueSearch
