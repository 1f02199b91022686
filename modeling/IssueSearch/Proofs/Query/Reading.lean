import IssueSearch.Proofs.Query.Clauses
import IssueSearch.Proofs.Query.Meaning
/-!
Query texts read by their grammar. Tokens stand between single spaces. A clause is a field with a
colon and a value behind it, or a word with a hash in front; a dash in front of a field or of a
value negates the clause, commas separate values, and two points stand between the bounds of a
range.
-/
namespace IssueSearch

namespace Query

/-- The two sides of the first two points that stand side by side. -/
def range? : List Char → Option (List Char × List Char)
  | '.' :: '.' :: rest => some ([], rest)
  | c :: rest => (range? rest).map fun bounds => (c :: bounds.1, bounds.2)
  | [] => none

def testOf (value : List Char) : Test :=
  match range? value with
  | some (low, high) => .span (String.ofList low) (String.ofList high)
  | none => .is (String.ofList value)

/-- A text without the dash in front, and whether there was one. -/
def unsigned : List Char → Bool × List Char
  | '-' :: rest => (true, rest)
  | text => (false, text)

/-- The clause of a field with its colon and of a value. -/
def literal? (name value : List Char) : Option Literal :=
  let (outer, name) := unsigned name
  let (inner, value) := unsigned value
  if name.getLast? = some ':' then
    some ⟨String.ofList name.dropLast, outer != inner, (value.splitOn ',').map testOf⟩
  else none

/-- The row of clauses that tokens make. -/
def items? : List (List Char) → Option (List Item)
  | [] => some []
  | token :: rest =>
      if token = ['o', 'r'] then (items? rest).map (.or :: ·)
      else if token.head? = some '#' then
        (items? rest).map (.clause ⟨textField, false, [.is (String.ofList token.tail)]⟩ :: ·)
      else
        match rest with
        | [] => none
        | value :: rest =>
            (literal? token value).bind fun l => (items? rest).map (.clause l :: ·)

/-- The row of clauses that a query text is read as. -/
def read? (text : String) : Option (List Item) :=
  if text = "" then some [] else items? (text.toList.splitOn ' ')

/-- The blanks and the characters that the grammar gives a meaning. -/
def isSyntax (c : Char) : Bool := Text.isBlank c || ":{}\"-#,".toList.contains c

/-- A text without blanks and characters of the grammar. -/
def IsWord (text : String) : Prop := ∀ c ∈ text.toList, isSyntax c = false

instance (text : String) : Decidable (IsWord text) :=
  List.decidableBAll (fun c => isSyntax c = false) text.toList

/-- A word without two points side by side. -/
structure IsValue (text : String) : Prop where
  word : IsWord text
  single : range? text.toList = none

theorem IsWord.not_mem {text : String} (hword : IsWord text) {c : Char}
    (hc : isSyntax c = true) : c ∉ text.toList := by
  intro hmem
  rw [hword c hmem] at hc
  cases hc

theorem unsigned_eq_self {text : List Char} (hdash : '-' ∉ text) :
    unsigned text = (false, text) := by
  cases text with
  | nil => rfl
  | cons c rest =>
      have hc : c ≠ '-' := by
        rintro rfl
        exact hdash List.mem_cons_self
      rw [unsigned]
      rintro rest' heq
      exact hc (List.cons.inj heq).1

theorem unsigned_mark (negated : Bool) {text : List Char} (hdash : '-' ∉ text) :
    unsigned ((Grammar.mark negated).toList ++ text) = (negated, text) := by
  cases negated with
  | true => rfl
  | false => exact unsigned_eq_self hdash

theorem range?_cons {c : Char} {rest : List Char}
    (hpoints : ¬ (c = '.' ∧ rest.head? = some '.')) :
    range? (c :: rest) = (range? rest).map fun bounds => (c :: bounds.1, bounds.2) := by
  cases rest with
  | nil => rw [range?]; simp
  | cons d rest =>
      rw [range?]
      intro rest' hc hrest
      exact hpoints ⟨hc, by rw [hrest]; rfl⟩

/-- A lower bound ends where two points follow, if it has none and does not run into them. -/
theorem range?_append {low : List Char} (hlow : range? (low ++ ['.']) = none)
    (high : List Char) : range? (low ++ '.' :: '.' :: high) = some (low, high) := by
  induction low with
  | nil => rfl
  | cons c low ih =>
      by_cases hpoints : c = '.' ∧ (low ++ ['.']).head? = some '.'
      · obtain ⟨rfl, hhead⟩ := hpoints
        obtain ⟨rest, hrest⟩ : ∃ rest, low ++ ['.'] = '.' :: rest := by
          rw [List.head?_eq_some_iff] at hhead
          exact hhead
        rw [List.cons_append, hrest, range?] at hlow
        cases hlow
      · have hpoints' : ¬ (c = '.' ∧ (low ++ '.' :: '.' :: high).head? = some '.') := by
          cases low with
          | nil => simpa using hpoints
          | cons d low => simpa using hpoints
        rw [List.cons_append, range?_cons hpoints, Option.map_eq_none_iff] at hlow
        rw [List.cons_append, range?_cons hpoints', ih hlow]
        rfl

/-- A text is read as a row of clauses, whatever clauses stand behind it. -/
def Spells (text : List Char) (items : List Item) : Prop :=
  ∃ tokens, tokens ≠ [] ∧ (∀ token ∈ tokens, ' ' ∉ token) ∧ text = [' '].intercalate tokens ∧
    ∀ rest, items? (tokens ++ rest) = (items? rest).map (items ++ ·)

theorem intercalate_append {α : Type} (x : α) {xs ys : List (List α)} (hxs : xs ≠ [])
    (hys : ys ≠ []) : [x].intercalate (xs ++ ys) =
      [x].intercalate xs ++ x :: [x].intercalate ys := by
  induction xs with
  | nil => exact absurd rfl hxs
  | cons first xs ih =>
      cases xs with
      | nil =>
          rw [List.singleton_append, List.intercalate_cons_of_ne_nil hys,
            List.intercalate_singleton, List.append_assoc]
          rfl
      | cons next xs =>
          rw [List.cons_append, List.cons_append, List.intercalate_cons_cons, ← List.cons_append,
            ih (List.cons_ne_nil _ _), List.intercalate_cons_cons]
          simp only [List.append_assoc]

theorem Spells.append {text text' : List Char} {items items' : List Item}
    (hspells : Spells text items) (hspells' : Spells text' items') :
    Spells (text ++ ' ' :: text') (items ++ items') := by
  obtain ⟨tokens, hne, hblank, rfl, hread⟩ := hspells
  obtain ⟨tokens', hne', hblank', rfl, hread'⟩ := hspells'
  refine ⟨tokens ++ tokens', by simp [hne], ?_, (intercalate_append ' ' hne hne').symm, ?_⟩
  · intro token hmem
    exact (List.mem_append.1 hmem).elim (hblank token) (hblank' token)
  · intro rest
    rw [List.append_assoc, hread, hread', Option.map_map]
    simp [Function.comp_def]

theorem Spells.or : Spells ['o', 'r'] [.or] := by
  refine ⟨[['o', 'r']], by simp, by simp, by simp, fun rest => ?_⟩
  rw [List.singleton_append, items?.eq_def]
  rfl

theorem Spells.word {token : String} (hword : IsWord token) :
    Spells ('#' :: token.toList) [.clause ⟨textField, false, [.is token]⟩] := by
  have hblank : ' ' ∉ '#' :: token.toList := by
    rw [List.mem_cons, not_or]
    exact ⟨by decide, hword.not_mem (by decide)⟩
  refine ⟨['#' :: token.toList], by simp, by simpa using hblank, by simp, fun rest => ?_⟩
  rw [List.singleton_append, items?.eq_def]
  simp

theorem literal?_eq_some {field : String} (hfield : IsWord field) (outer inner : Bool)
    {value : List Char} (hvalue : '-' ∉ value) :
    literal? ((Grammar.mark outer).toList ++ (field.toList ++ [':']))
      ((Grammar.mark inner).toList ++ value) =
        some ⟨field, outer != inner, (value.splitOn ',').map testOf⟩ := by
  have hname : '-' ∉ field.toList ++ [':'] := by
    simp [hfield.not_mem (by decide : isSyntax '-' = true)]
  simp [literal?, unsigned_mark outer hname, unsigned_mark inner hvalue]

theorem Spells.clause {field : String} (hfield : IsWord field) (outer inner : Bool)
    {value : List Char} (hblank : ' ' ∉ value) (hdash : '-' ∉ value) :
    Spells ((Grammar.mark outer).toList ++ field.toList ++ ':' :: ' ' ::
        ((Grammar.mark inner).toList ++ value))
      [.clause ⟨field, outer != inner, (value.splitOn ',').map testOf⟩] := by
  have hmark : ∀ negated, ' ' ∉ (Grammar.mark negated).toList := by decide
  refine ⟨[(Grammar.mark outer).toList ++ (field.toList ++ [':']),
    (Grammar.mark inner).toList ++ value], by simp, ?_, by simp [List.intercalate_cons_cons], ?_⟩
  · simp [hmark, hblank, hfield.not_mem (by decide : isSyntax ' ' = true)]
  · intro rest
    have hor : (Grammar.mark outer).toList ++ (field.toList ++ [':']) ≠ ['o', 'r'] := by
      intro heq
      have hlast := congrArg List.getLast? heq
      simp at hlast
    have hhash : ((Grammar.mark outer).toList ++ (field.toList ++ [':'])).head? ≠ some '#' := by
      intro heq
      have hmem := List.mem_of_head? heq
      have hsign : ∀ negated, '#' ∉ (Grammar.mark negated).toList := by decide
      simp [hsign, hfield.not_mem (by decide : isSyntax '#' = true)] at hmem
    rw [List.cons_append, List.singleton_append, items?.eq_def]
    simp only [if_neg hor, if_neg hhash, literal?_eq_some hfield outer inner hdash]
    rfl

/-- Texts with blanks between are read one behind the other. -/
theorem Spells.intercalate {texts : List (List Char)} {rows : List (List Item)}
    (hspells : List.Forall₂ Spells texts rows) (hne : texts ≠ []) :
    Spells ([' '].intercalate texts) rows.flatten := by
  induction hspells with
  | nil => exact absurd rfl hne
  | @cons text row texts rows hown hrest ih =>
      cases hrest with
      | nil => simpa using hown
      | cons hnext hothers =>
          rw [List.intercalate_cons_cons, List.flatten_cons, List.append_assoc]
          exact hown.append (ih (List.cons_ne_nil _ _))

/-- Clauses with `or` between are read as such. -/
theorem Spells.intercalate_or {α : Type} {render : α → List Char} {clause : α → Literal}
    {xs : List α} (hne : xs ≠ []) (hspells : ∀ x ∈ xs, Spells (render x) [.clause (clause x)]) :
    Spells (" or ".toList.intercalate (xs.map render))
      ((xs.map fun x => Item.clause (clause x)).intersperse .or) := by
  induction xs with
  | nil => exact absurd rfl hne
  | cons x xs ih =>
      have hown := hspells x List.mem_cons_self
      cases xs with
      | nil => simpa using hown
      | cons next xs =>
          have hrest := ih (List.cons_ne_nil _ _) fun other hother =>
            hspells other (List.mem_cons_of_mem _ hother)
          have happend := hown.append (Spells.or.append hrest)
          rw [List.map_cons] at happend ⊢
          rw [List.map_cons, List.intercalate_cons_cons, List.append_assoc]
          exact happend

/-- A text that is read as a row is read as that row by itself. -/
theorem Spells.read?_eq {text : String} {items : List Item} (hspells : Spells text.toList items) :
    read? text = some items := by
  obtain ⟨tokens, hne, hblank, htext, hread⟩ := hspells
  have hsplit : text.toList.splitOn ' ' = tokens := by
    rw [htext, List.splitOn_intercalate ' ' hblank hne]
  have hitems := hread []
  rw [List.append_nil] at hitems
  have hfull : text ≠ "" := by
    rintro rfl
    rw [← hsplit] at hitems
    cases hitems
  rw [read?, if_neg hfull, hsplit, hitems]
  simp [items?]

end Query
end IssueSearch
