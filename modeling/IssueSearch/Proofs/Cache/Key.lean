import IssueSearch.Cache.Key
import IssueSearch.Proofs.Json.Reordering
/-!
Keys of the cache. The digest of a key holds no colon, so that the last colon ends the endpoint and,
where domains hold none, the first one ends the domain. Two keys are equal only if their three parts
are, and two digests only if their parameters are both empty or the same up to the order of members.
-/
namespace IssueSearch.Digest

/-- The digits that digests are written in. -/
def isHexDigit (c : Char) : Bool := "0123456789abcdef".toList.contains c

theorem isHexDigit_digitChar : ∀ d < 16, isHexDigit (Nat.digitChar d) = true := by decide

theorem isHexDigit_of_mem_hex {bytes : List UInt8} {c : Char} (hmem : c ∈ hex bytes) :
    isHexDigit c = true := by
  rw [hex, List.mem_flatMap] at hmem
  obtain ⟨byte, -, hmem⟩ := hmem
  have hbyte : byte.toNat < 256 := byte.toNat_lt
  rcases List.mem_cons.1 hmem with rfl | hmem
  · exact isHexDigit_digitChar _ (by omega)
  · obtain rfl := List.mem_singleton.1 hmem
    exact isHexDigit_digitChar _ (Nat.mod_lt _ (by decide))

theorem isHexDigit_of_mem_short {text : String} {c : Char} (hmem : c ∈ (short text).toList) :
    isHexDigit c = true := by
  rw [short, String.toList_ofList] at hmem
  exact isHexDigit_of_mem_hex (List.mem_of_mem_take hmem)

theorem toList_loop (bytes : ByteArray) (i : Nat) (acc : List UInt8) :
    ByteArray.toList.loop bytes i acc = acc.reverse ++ bytes.data.toList.drop i := by
  rw [ByteArray.toList.loop]
  split
  · rename_i hlt
    have hin : i < bytes.data.toList.length := hlt
    rw [toList_loop bytes (i + 1), List.reverse_cons, List.append_assoc, List.singleton_append,
      List.drop_eq_getElem_cons hin]
    congr 2
    simp [ByteArray.get!, hlt]
  · rename_i hge
    have hout : bytes.data.toList.length ≤ i := Nat.le_of_not_lt hge
    rw [List.drop_eq_nil_of_le hout, List.append_nil]
termination_by bytes.size - i

/-- The digits of a digest without the loop over bytes, which the kernel does not unfold on long
texts. -/
theorem toList_short (text : String) :
    (short text).toList = (hex (sha256 text.toUTF8.data.toList)).take 16 := by
  rw [short, String.toList_ofList, ByteArray.toList, toList_loop]
  rfl

end IssueSearch.Digest

namespace IssueSearch.Cache

theorem colon_notMem_paramsDigest (p : Json) : ':' ∉ (paramsDigest p).toList := by
  intro hmem
  rw [paramsDigest] at hmem
  split at hmem
  · exact absurd hmem (by decide)
  · exact absurd (Digest.isHexDigit_of_mem_short hmem) (by decide)

/-- No digest is the word for empty parameters. -/
theorem short_ne_default (text : String) : Digest.short text ≠ defaultDigest := by
  intro heq
  have hmem : 'u' ∈ (Digest.short text).toList := by
    rw [heq]
    decide
  exact absurd (Digest.isHexDigit_of_mem_short hmem) (by decide)

theorem paramsDigest_eq_iff {p q : Json} :
    paramsDigest p = paramsDigest q ↔
      (p.isFalsy = true ∧ q.isFalsy = true) ∨ (p.isFalsy = false ∧ q.isFalsy = false ∧
        Digest.short p.canonicalText = Digest.short q.canonicalText) := by
  cases hp : p.isFalsy <;> cases hq : q.isFalsy <;>
    simp [paramsDigest, hp, hq, short_ne_default, (short_ne_default _).symm]

/-- What stands before the first colon, and what behind it, can be told from the whole. -/
theorem append_colon_inj {xs ys rest rest' : List Char} (hxs : ':' ∉ xs) (hys : ':' ∉ ys)
    (heq : xs ++ ':' :: rest = ys ++ ':' :: rest') : xs = ys ∧ rest = rest' := by
  induction xs generalizing ys with
  | nil =>
      cases ys with
      | nil => exact ⟨rfl, List.tail_eq_of_cons_eq heq⟩
      | cons y ys =>
          obtain ⟨rfl, -⟩ := List.cons.inj heq
          exact absurd List.mem_cons_self hys
  | cons x xs ih =>
      cases ys with
      | nil =>
          obtain ⟨rfl, -⟩ := List.cons.inj heq
          exact absurd List.mem_cons_self hxs
      | cons y ys =>
          obtain ⟨rfl, htail⟩ := List.cons.inj heq
          obtain ⟨rfl, hrest⟩ := ih (fun hmem => hxs (List.mem_cons_of_mem _ hmem))
            (fun hmem => hys (List.mem_cons_of_mem _ hmem)) htail
          exact ⟨rfl, hrest⟩

/-- What stands before the last colon, and what behind it, can be told from the whole. -/
theorem colon_append_inj {xs ys rest rest' : List Char} (hrest : ':' ∉ rest) (hrest' : ':' ∉ rest')
    (heq : xs ++ ':' :: rest = ys ++ ':' :: rest') : xs = ys ∧ rest = rest' := by
  have hreverse : rest.reverse ++ ':' :: xs.reverse = rest'.reverse ++ ':' :: ys.reverse := by
    simpa using congrArg List.reverse heq
  obtain ⟨hback, hfront⟩ := append_colon_inj (fun hmem => hrest (List.mem_reverse.1 hmem))
    (fun hmem => hrest' (List.mem_reverse.1 hmem)) hreverse
  exact ⟨List.reverse_injective hfront, List.reverse_injective hback⟩

/-- The digest can be told from a key, and what stands before it, whatever that holds. -/
theorem digest_eq_of_key {d d' e e' : String} {p q : Json} (heq : key d e p = key d' e' q) :
    d ++ ":" ++ e = d' ++ ":" ++ e' ∧ paramsDigest p = paramsDigest q := by
  have hchars : (d ++ ":" ++ e).toList ++ ':' :: (paramsDigest p).toList =
      (d' ++ ":" ++ e').toList ++ ':' :: (paramsDigest q).toList := by
    simpa [key] using congrArg String.toList heq
  obtain ⟨hbefore, hdigest⟩ :=
    colon_append_inj (colon_notMem_paramsDigest p) (colon_notMem_paramsDigest q) hchars
  exact ⟨String.toList_inj.1 hbefore, String.toList_inj.1 hdigest⟩

end IssueSearch.Cache
