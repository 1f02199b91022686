import IssueSearch.Proofs.Query.Clauses
/-!
Written values read back. A value is read up to the quote that closes it, or as a bare word up to
the next blank, and a backslash in front of a quote is left out. What a value of an ordinary field
is written as gives the value back and ends where it ends, with three exceptions: an empty value and
a bare one that begins with a quote are written as something else, and between quotes a backslash
at the end takes the closing quote for a part of the value.
-/
namespace IssueSearch

namespace Query

/-- What stands in front of the first quote that has no backslash in front of it, and what stands
behind that quote. -/
def readQuoted? : List Char → Option (List Char × List Char)
  | [] => none
  | '\\' :: '\x22' :: rest =>
      (readQuoted? rest).map fun found => ('\x22' :: found.1, found.2)
  | c :: rest =>
      if c = '\x22' then some ([], rest)
      else (readQuoted? rest).map fun found => (c :: found.1, found.2)

/-- The value at the beginning of a text, and what is behind it: a text between quotes, or a bare
word, which is not empty. -/
def readValue? (text : List Char) : Option (List Char × List Char) :=
  if text.head? = some '\x22' then readQuoted? text.tail
  else
    let word := text.takeWhile fun c => !Text.isBlank c
    if word = [] then none else some (word, text.dropWhile fun c => !Text.isBlank c)

/-- A value that can be read back from what it is written as. -/
def Readable (rangeBound : Bool) (value : List Char) : Prop :=
  if value.any (needsQuotes rangeBound) = true then value.getLast? ≠ some '\\'
  else value ≠ [] ∧ value.head? ≠ some '\x22'

instance (rangeBound : Bool) (value : List Char) : Decidable (Readable rangeBound value) :=
  inferInstanceAs (Decidable (if value.any (needsQuotes rangeBound) = true then
    value.getLast? ≠ some '\\' else value ≠ [] ∧ value.head? ≠ some '\x22'))

theorem readQuoted?_cons {c : Char} {rest : List Char} (hquote : c ≠ '\x22')
    (hescape : c = '\\' → rest.head? ≠ some '\x22') :
    readQuoted? (c :: rest) = (readQuoted? rest).map fun found => (c :: found.1, found.2) := by
  rw [readQuoted?, if_neg hquote]
  rintro rest' rfl rfl
  exact hescape rfl rfl

theorem head?_flatMap_quotedChar_append {value rest : List Char} (hvalue : value ≠ []) :
    (value.flatMap quotedChar ++ rest).head? ≠ some '\x22' := by
  cases value with
  | nil => exact absurd rfl hvalue
  | cons c value =>
      by_cases hquote : c = '\x22'
      · simp [quotedChar, hquote]
      · simp [quotedChar, hquote]

/-- The characters of a value are read back one by one, as long as no quote follows a backslash at
the end of the value. -/
theorem readQuoted?_append {value rest : List Char}
    (hlast : value.getLast? = some '\\' → rest.head? ≠ some '\x22') :
    readQuoted? (value.flatMap quotedChar ++ rest) =
      (readQuoted? rest).map fun found => (value ++ found.1, found.2) := by
  induction value with
  | nil => simp
  | cons c value ih =>
      have hrest : value.getLast? = some '\\' → rest.head? ≠ some '\x22' := by
        intro heq
        exact hlast (by rw [List.getLast?_cons, heq, Option.getD_some])
      rw [List.flatMap_cons, List.append_assoc]
      by_cases hquote : c = '\x22'
      · subst hquote
        have hread : readQuoted? (quotedChar '\x22' ++ (value.flatMap quotedChar ++ rest)) =
            (readQuoted? (value.flatMap quotedChar ++ rest)).map
              fun found => ('\x22' :: found.1, found.2) := rfl
        rw [hread, ih hrest, Option.map_map]
        rfl
      · have hescape : c = '\\' → (value.flatMap quotedChar ++ rest).head? ≠ some '\x22' := by
          rintro rfl
          cases value with
          | nil => exact hlast rfl
          | cons d value => exact head?_flatMap_quotedChar_append (List.cons_ne_nil d value)
        rw [quotedChar, if_neg hquote, List.singleton_append, readQuoted?_cons hquote hescape,
          ih hrest, Option.map_map]
        rfl

/-- Reading takes the closing quote away, so a value is shorter than what it is read from. -/
theorem length_of_readQuoted? {text value rest : List Char}
    (hread : readQuoted? text = some (value, rest)) : value.length < text.length := by
  induction text using readQuoted?.induct generalizing value with
  | case1 => cases hread
  | case2 text ih =>
      obtain ⟨⟨inner, behind⟩, hinner, heq⟩ := Option.map_eq_some_iff.1 hread
      cases heq
      have hshort := ih hinner
      simp only [List.length_cons]
      omega
  | case3 text hescape =>
      rw [readQuoted?, if_pos rfl] at hread
      · cases hread
        simp
      · exact hescape
  | case4 c text hescape hquote ih =>
      rw [readQuoted?, if_neg hquote] at hread
      · obtain ⟨⟨inner, behind⟩, hinner, heq⟩ := Option.map_eq_some_iff.1 hread
        cases heq
        exact Nat.succ_lt_succ (ih hinner)
      · exact hescape

/-- A value with a backslash at the end does not end where its quotes do: it runs on to the next
quote, if there is one. -/
theorem readQuoted?_of_backslash (value rest : List Char) :
    readQuoted? ((value ++ ['\\']).flatMap quotedChar ++ '\x22' :: rest) =
      (readQuoted? rest).map fun found => (value ++ '\x22' :: found.1, found.2) := by
  have htext : (value ++ ['\\']).flatMap quotedChar ++ '\x22' :: rest =
      value.flatMap quotedChar ++ '\\' :: '\x22' :: rest := by
    simp [quotedChar]
  have hread : readQuoted? ('\\' :: '\x22' :: rest) =
      (readQuoted? rest).map fun found => ('\x22' :: found.1, found.2) := rfl
  rw [htext, readQuoted?_append (by simp), hread, Option.map_map]
  rfl

theorem readValue?_quoted (rest : List Char) : readValue? ('\x22' :: rest) = readQuoted? rest := rfl

theorem readValue?_bare {value rest : List Char} (hvalue : value ≠ [])
    (hquote : value.head? ≠ some '\x22') (hblank : ∀ c ∈ value, Text.isBlank c = false)
    (hrest : ∀ c, rest.head? = some c → Text.isBlank c = true) :
    readValue? (value ++ rest) = some (value, rest) := by
  have hword : ∀ c ∈ value, (!Text.isBlank c) = true := fun c hc => by rw [hblank c hc]; rfl
  have hend : rest.takeWhile (fun c => !Text.isBlank c) = [] ∧
      rest.dropWhile (fun c => !Text.isBlank c) = rest := by
    cases rest with
    | nil => exact ⟨rfl, rfl⟩
    | cons c rest =>
        have hc : Text.isBlank c = true := hrest c rfl
        simp [hc]
  have htake : (value ++ rest).takeWhile (fun c => !Text.isBlank c) = value := by
    rw [List.takeWhile_append_of_pos hword, hend.1, List.append_nil]
  have hdrop : (value ++ rest).dropWhile (fun c => !Text.isBlank c) = rest := by
    rw [List.dropWhile_append_of_pos hword, hend.2]
  have hhead : (value ++ rest).head? ≠ some '\x22' := by
    rwa [List.head?_append_of_ne_nil value hvalue]
  simp only [readValue?, if_neg hhead, htake, hdrop, if_neg hvalue]

variable {rangeBound : Bool} {value : List Char}

theorem Readable.ne_nil (hreadable : Readable rangeBound value) : value ≠ [] := by
  rintro rfl
  rw [Readable] at hreadable
  exact hreadable.1 rfl

/-- A readable value stands between quotes that end where it ends, or bare and without a quote at
its beginning. -/
theorem Readable.written (hreadable : Readable rangeBound value) :
    (value.any (needsQuotes rangeBound) = true ∧
      writeOrdinary rangeBound value = '\x22' :: (value.flatMap quotedChar ++ ['\x22']) ∧
      ∀ rest, readQuoted? (value.flatMap quotedChar ++ '\x22' :: rest) = some (value, rest)) ∨
    (value.any (needsQuotes rangeBound) = false ∧ writeOrdinary rangeBound value = value ∧
      value.head? ≠ some '\x22') := by
  rw [Readable] at hreadable
  rw [writeOrdinary]
  split at hreadable
  · rename_i hneeds
    refine .inl ⟨hneeds, if_pos hneeds, fun rest => ?_⟩
    have hread : readQuoted? ('\x22' :: rest) = some ([], rest) := rfl
    rw [readQuoted?_append (fun heq => absurd heq hreadable), hread, Option.map_some,
      List.append_nil]
  · rename_i hneeds
    exact .inr ⟨Bool.eq_false_iff.2 hneeds, if_neg hneeds, hreadable.2⟩

/-- A readable value is read back, and what is written behind it is left. -/
theorem Readable.readValue?_eq (hreadable : Readable rangeBound value) {rest : List Char}
    (hrest : ∀ c, rest.head? = some c → Text.isBlank c = true) :
    readValue? (writeOrdinary rangeBound value ++ rest) = some (value, rest) := by
  rcases hreadable.written with ⟨-, hwritten, hread⟩ | ⟨hbare, hwritten, hquote⟩
  · rw [hwritten, List.cons_append, readValue?_quoted, List.append_assoc, List.singleton_append,
      hread]
  · rw [hwritten]
    refine readValue?_bare hreadable.ne_nil hquote (fun c hc => ?_) hrest
    by_contra hblank
    rw [Bool.not_eq_false] at hblank
    exact List.any_eq_false.1 hbare c hc (by simp [needsQuotes, hblank])

/-- No other value is, not even where nothing is written behind it. -/
theorem readable_of_readValue?
    (hread : readValue? (writeOrdinary rangeBound value) = some (value, [])) :
    Readable rangeBound value := by
  rw [Readable]
  rw [writeOrdinary] at hread
  split at hread
  · rename_i hneeds
    rw [if_pos hneeds]
    intro hlast
    obtain ⟨init, rfl⟩ := List.getLast?_eq_some_iff.1 hlast
    rw [List.cons_append, readValue?_quoted, readQuoted?_of_backslash] at hread
    cases hread
  · rename_i hneeds
    rw [if_neg hneeds]
    constructor
    · rintro rfl
      cases hread
    · intro hquote
      obtain ⟨rest, rfl⟩ := List.head?_eq_some_iff.1 hquote
      rw [readValue?_quoted] at hread
      have hshort := length_of_readQuoted? hread
      rw [List.length_cons] at hshort
      omega

end Query

namespace Grammar

open Query

/-- Every value of an ordinary field is written as something. It is read back from there, whatever
is written behind it, exactly if it is readable. -/
theorem escape_readsBack {g : Grammar} {field : String} (hordinary : g.kind field = .ordinary)
    (rangeBound : Bool) (value : Scalar) :
    ∃ written, g.escape field rangeBound (some value) = .ok written ∧
      (readValue? written.toList = some (value.text.toList, []) ↔
        Readable rangeBound value.text.toList) ∧
      (Readable rangeBound value.text.toList → ∀ rest : List Char,
        (∀ c, rest.head? = some c → Text.isBlank c = true) →
          readValue? (written.toList ++ rest) = some (value.text.toList, rest)) := by
  have hwritten : g.write? field rangeBound value.text =
      some (String.ofList (writeOrdinary rangeBound value.text.toList)) := by
    rw [write?, hordinary]
  refine ⟨_, writeFor_eq_ok_iff.2 hwritten, ?_, ?_⟩
  · rw [String.toList_ofList]
    refine ⟨readable_of_readValue?, fun hreadable => ?_⟩
    have hread := @Readable.readValue?_eq _ _ hreadable [] (by simp)
    rwa [List.append_nil] at hread
  · intro hreadable rest hrest
    rw [String.toList_ofList]
    exact hreadable.readValue?_eq hrest

/-- A value with blanks and quotes, and a clause behind it. -/
theorem escape_readsBack_sayHi :
    ({} : Grammar).kind "summary" = .ordinary ∧
    ∃ written, ({} : Grammar).escape "summary" false (some (.str "say \"hi\" now")) = .ok written ∧
      readValue? (written.toList ++ " type: Bug".toList) =
        some ("say \"hi\" now".toList, " type: Bug".toList) := by
  have hordinary : ({} : Grammar).kind "summary" = .ordinary := by decide +kernel
  obtain ⟨written, hescape, -, hread⟩ :=
    escape_readsBack hordinary false (.str "say \"hi\" now")
  refine ⟨hordinary, written, hescape, ?_⟩
  refine hread (by decide +kernel) _ fun c hc => ?_
  cases hc
  decide

/-- What is not read back: a bare value that begins with a quote is read without its quotes, an
empty one is not there, and one with a backslash at the end is not read unless another quote follows
it, and then with the clause in front of that quote. -/
theorem escape_notReadBack :
    ({} : Grammar).escape "summary" false (some (.str "\"beta\"")) = .ok "\"beta\"" ∧
    readValue? "\"beta\"".toList = some ("beta".toList, []) ∧
    ({} : Grammar).escape "summary" false (some (.str "")) = .ok "" ∧
    readValue? "".toList = none ∧
    ({} : Grammar).escape "summary" false (some (.str "in C:\\")) = .ok "\"in C:\\\"" ∧
    readValue? "\"in C:\\\"".toList = none ∧
    readValue? ("\"in C:\\\"".toList ++ " assignee: \"john doe\"".toList) =
      some ("in C:\" assignee: ".toList, "john doe\"".toList) := by
  refine ⟨?_, ?_, ?_, ?_, ?_, ?_, ?_⟩ <;> decide +kernel

end Grammar
end IssueSearch
