import IssueSearch.Proofs.Query.Reading
import IssueSearch.Proofs.Query.Token
/-!
Which comparisons and ranges of an ordinary field are written alike. The text of a clause tells
whether it is negated, and two values, two lower bounds or two upper bounds are never written alike.
Two points separate the bounds of a range, though, and nothing is put between quotes for holding
them, so a range may be written like another one that has its separator further on, or like a value;
an empty bound is written like an open one. Apart from that, what is asked for can be read from the
clause.
-/
namespace IssueSearch

/-- What a comparison or a range asks for, by the texts of its values. -/
inductive Target where
  | is (text : String)
  | above (text : String)
  | below (text : String)
  | between (low high : String)
deriving DecidableEq, Repr

def Comparison.target (operator : Comparison) (text : String) : Target :=
  match operator with
  | .greater => .above text
  | .less => .below text
  | _ => .is text

/-- What a condition asks for; lists and presence ask for something else. -/
def Condition.target? : Condition → Option Target
  | .compare operator (some value) => some (operator.target value.text)
  | .between low high => some (.between low.text high.text)
  | _ => none

open Query (needsQuotes quotedChar writeOrdinary readQuoted? range?)

namespace Query

/-- A value as it stands behind the colon of an ordinary field. -/
def write (rangeBound : Bool) (text : String) : String :=
  String.ofList (writeOrdinary rangeBound text.toList)

/-- A text is cut at two points, and again at two points further on. -/
inductive CutLater (before behind : String) : String → String → Prop
  /-- Of three points, the last two are taken for the separator and not the first two. -/
  | point {behind' : String} (rest : behind = "." ++ behind') :
      CutLater before behind (before ++ ".") behind'
  | part {behind' : String} (part : String) (rest : behind = part ++ ".." ++ behind') :
      CutLater before behind (before ++ ".." ++ part) behind'

end Query

namespace Target

/-- What stands behind the colon of an ordinary field. -/
def text : Target → String
  | is value => Query.write false value
  | above low => Query.write true low ++ ".."
  | below high => ".." ++ Query.write true high
  | between low high => Query.write true low ++ ".." ++ Query.write true high

/-- The bounds of a range, of which an open one is empty. -/
def bounds? : Target → Option (String × String)
  | is _ => none
  | above low => some (low, "")
  | below high => some ("", high)
  | between low high => some (low, high)

/-- The range between two bounds. -/
def ofBounds (low high : String) : Target :=
  if low = "" then below high else if high = "" then above low else between low high

/-- How one text comes to be written for two targets. -/
inductive Confused : Target → Target → Prop
  /-- An empty bound is written like an open one. -/
  | opened {target target' : Target} {low high : String}
      (bounds : target.bounds? = some (low, high)) (bounds' : target'.bounds? = some (low, high))
      (different : target ≠ target') : Confused target target'
  /-- A range has another pair of points that may be taken for its separator. -/
  | shifted {target target' : Target} {low high low' high' : String}
      (bounds : target.bounds? = some (low, high)) (bounds' : target'.bounds? = some (low', high'))
      (later : Query.CutLater (Query.write true low) (Query.write true high)
        (Query.write true low') (Query.write true high')) : Confused target target'
  /-- A value is written like a range. -/
  | spelled {target : Target} {value low high : String}
      (bounds : target.bounds? = some (low, high))
      (written : Query.write false value =
        Query.write true low ++ ".." ++ Query.write true high) : Confused (is value) target

end Target

/-! ### What is written for a value -/

namespace Query

theorem flatMap_quotedChar_inj {xs ys : List Char}
    (heq : xs.flatMap quotedChar = ys.flatMap quotedChar) : xs = ys := by
  -- The blank in front of the closing quote keeps a backslash at the end from running into it.
  have hread : ∀ value : List Char,
      readQuoted? (value.flatMap quotedChar ++ [' ', '\x22']) = some (value ++ [' '], []) := by
    intro value
    rw [readQuoted?_append (by simp)]
    rfl
  have hboth := hread xs
  rw [heq, hread ys] at hboth
  simpa using hboth.symm

theorem mem_writeOrdinary {rangeBound : Bool} {text : List Char} {c : Char} (hmem : c ∈ text)
    (hquote : c ≠ '\x22') : c ∈ writeOrdinary rangeBound text := by
  rw [writeOrdinary]
  split
  · have hinner : c ∈ text.flatMap quotedChar := by
      refine List.mem_flatMap.2 ⟨c, hmem, ?_⟩
      rw [quotedChar, if_neg hquote]
      exact List.mem_singleton_self c
    simp [hinner]
  · exact hmem

theorem not_needsQuotes_quote (rangeBound : Bool) : needsQuotes rangeBound '\x22' = false := by
  cases rangeBound <;> decide

/-- What is put between quotes holds a character that bare values may not have, also when it is
written. -/
theorem any_needsQuotes_writeOrdinary (rangeBound : Bool) (text : List Char) :
    (writeOrdinary rangeBound text).any (needsQuotes rangeBound) =
      text.any (needsQuotes rangeBound) := by
  cases hneeds : text.any (needsQuotes rangeBound) with
  | false => rw [writeOrdinary, hneeds, if_neg Bool.false_ne_true, hneeds]
  | true =>
      obtain ⟨c, hmem, hc⟩ := List.any_eq_true.1 hneeds
      have hquote : c ≠ '\x22' := by
        rintro rfl
        rw [not_needsQuotes_quote] at hc
        cases hc
      exact List.any_eq_true.2 ⟨c, mem_writeOrdinary hmem hquote, hc⟩

/-- Different values are written differently. -/
theorem writeOrdinary_inj {rangeBound : Bool} {xs ys : List Char}
    (heq : writeOrdinary rangeBound xs = writeOrdinary rangeBound ys) : xs = ys := by
  have hneeds : xs.any (needsQuotes rangeBound) = ys.any (needsQuotes rangeBound) := by
    rw [← any_needsQuotes_writeOrdinary, heq, any_needsQuotes_writeOrdinary]
  rw [writeOrdinary, writeOrdinary, hneeds] at heq
  split at heq
  · refine flatMap_quotedChar_inj ?_
    simpa using heq
  · exact heq

theorem write_inj {rangeBound : Bool} {text text' : String}
    (heq : write rangeBound text = write rangeBound text') : text = text' := by
  rw [write, write, String.ofList_inj] at heq
  exact String.toList_inj.1 (writeOrdinary_inj heq)

theorem write_empty (rangeBound : Bool) : write rangeBound "" = "" := rfl

theorem needsQuotes_of_rangeBound {c : Char} (hneeds : needsQuotes true c = true) :
    needsQuotes false c = true := by
  simp only [needsQuotes, Bool.or_eq_true, Bool.and_eq_true] at hneeds ⊢
  rcases hneeds with hsyntax | ⟨hfalse, -⟩
  · exact .inl hsyntax
  · cases hfalse

theorem write_bare {rangeBound : Bool} {text : String}
    (hbare : ∀ c ∈ text.toList, needsQuotes rangeBound c = false) :
    write rangeBound text = text := by
  have hnone : text.toList.any (needsQuotes rangeBound) = false :=
    List.any_eq_false.2 fun c hc => Bool.eq_false_iff.1 (hbare c hc)
  rw [write, writeOrdinary, hnone, if_neg Bool.false_ne_true, String.ofList_toList]

end Query

/-! ### Two separators in one text -/

namespace Target

theorem eq_is_of_bounds? {target : Target} (hbounds : target.bounds? = none) :
    ∃ value, target = is value := by
  cases target with
  | is value => exact ⟨value, rfl⟩
  | above _ | below _ | between _ _ => cases hbounds

/-- A range is its bounds with the separator between. -/
theorem text_of_bounds? {target : Target} {low high : String}
    (hbounds : target.bounds? = some (low, high)) :
    target.text = Query.write true low ++ ".." ++ Query.write true high := by
  cases target with
  | is _ => cases hbounds
  | above _ | below _ | between _ _ =>
      cases hbounds
      simp [text, Query.write_empty]

end Target

namespace Query

theorem CutLater.append_eq {before behind before' behind' : String}
    (hlater : CutLater before behind before' behind') :
    before ++ ".." ++ behind = before' ++ ".." ++ behind' := by
  cases hlater with
  | point rest | part _ rest =>
      rw [rest, ← String.toList_inj]
      simp

/-- Of two cuts the second is further on by a part, which is empty, or a point, or begins with the
first separator. -/
theorem cut_of_append {before behind before' behind' : String} {part : List Char}
    (hbefore : before'.toList = before.toList ++ part)
    (hrest : "..".toList ++ behind.toList = part ++ ("..".toList ++ behind'.toList)) :
    (before = before' ∧ behind = behind') ∨ CutLater before behind before' behind' := by
  rcases part with _ | ⟨c, _ | ⟨d, part⟩⟩
  · left
    rw [List.append_nil, String.toList_inj] at hbefore
    rw [List.nil_append, List.append_cancel_left_eq, String.toList_inj] at hrest
    exact ⟨hbefore.symm, hrest⟩
  · -- The two separators have one point in common.
    right
    obtain ⟨rfl, hbehind⟩ : c = '.' ∧ behind.toList = '.' :: behind'.toList := by
      simpa [eq_comm] using hrest
    obtain rfl : before' = before ++ "." := by
      rw [← String.toList_inj, hbefore, String.toList_append]
      rfl
    refine .point ?_
    rw [← String.toList_inj, hbehind, String.toList_append]
    rfl
  · right
    obtain ⟨rfl, rfl, hbehind⟩ :
        c = '.' ∧ d = '.' ∧ behind.toList = part ++ '.' :: '.' :: behind'.toList := by
      simpa [eq_comm] using hrest
    obtain rfl : before' = before ++ ".." ++ String.ofList part := by
      rw [← String.toList_inj, hbefore]
      simp
    refine .part (String.ofList part) ?_
    rw [← String.toList_inj, hbehind]
    simp

/-- How a text can be cut at two points in two ways. -/
theorem append_points_eq_iff {before behind before' behind' : String} :
    before ++ ".." ++ behind = before' ++ ".." ++ behind' ↔
      (before = before' ∧ behind = behind') ∨ CutLater before behind before' behind' ∨
        CutLater before' behind' before behind := by
  constructor
  · intro heq
    have hlists := congrArg String.toList heq
    simp only [String.toList_append, List.append_assoc] at hlists
    rcases List.append_eq_append_iff.1 hlists with ⟨part, hpart, hrest⟩ | ⟨part, hpart, hrest⟩
    · exact (cut_of_append hpart hrest).imp_right .inl
    · rcases cut_of_append hpart hrest with ⟨hbefore, hbehind⟩ | hlater
      · exact .inl ⟨hbefore.symm, hbehind.symm⟩
      · exact .inr (.inr hlater)
  · rintro (⟨rfl, rfl⟩ | hlater | hlater)
    · rfl
    · exact hlater.append_eq
    · exact hlater.append_eq.symm

end Query

namespace Target

theorem Confused.text_eq {target target' : Target} (hconfused : Confused target target') :
    target.text = target'.text := by
  cases hconfused with
  | opened bounds bounds' _ => rw [text_of_bounds? bounds, text_of_bounds? bounds']
  | shifted bounds bounds' later =>
      rw [text_of_bounds? bounds, text_of_bounds? bounds', later.append_eq]
  | spelled bounds written => exact written.trans (text_of_bounds? bounds).symm

/-- Two targets have one text only where they are confused. -/
theorem text_eq_iff {target target' : Target} :
    target.text = target'.text ↔
      target = target' ∨ Confused target target' ∨ Confused target' target := by
  constructor
  · intro heq
    cases hbounds : target.bounds? with
    | none =>
        obtain ⟨value, rfl⟩ := eq_is_of_bounds? hbounds
        cases hbounds' : target'.bounds? with
        | none =>
            obtain ⟨value', rfl⟩ := eq_is_of_bounds? hbounds'
            exact .inl (congrArg is (Query.write_inj heq))
        | some bounds' =>
            exact .inr (.inl (.spelled hbounds' (heq.trans (text_of_bounds? hbounds'))))
    | some bounds =>
        cases hbounds' : target'.bounds? with
        | none =>
            obtain ⟨value', rfl⟩ := eq_is_of_bounds? hbounds'
            exact .inr (.inr (.spelled hbounds (heq.symm.trans (text_of_bounds? hbounds))))
        | some bounds' =>
            rw [text_of_bounds? hbounds, text_of_bounds? hbounds'] at heq
            rcases Query.append_points_eq_iff.1 heq with ⟨hlow, hhigh⟩ | hlater | hlater
            · have hsame : bounds = bounds' :=
                Prod.ext (Query.write_inj hlow) (Query.write_inj hhigh)
              subst hsame
              by_cases htarget : target = target'
              · exact .inl htarget
              · exact .inr (.inl (.opened hbounds hbounds' htarget))
            · exact .inr (.inl (.shifted hbounds hbounds' hlater))
            · exact .inr (.inr (.shifted hbounds' hbounds hlater))
  · rintro (rfl | hconfused | hconfused)
    · rfl
    · exact hconfused.text_eq
    · exact hconfused.text_eq.symm

/-- A bare value with two points in it is written like a range. -/
theorem text_is_of_bare {low high : String}
    (hbare : ∀ c ∈ (low ++ ".." ++ high).toList, Query.needsQuotes false c = false) :
    (is (low ++ ".." ++ high)).text = (between low high).text := by
  have hbound : ∀ c ∈ (low ++ ".." ++ high).toList, Query.needsQuotes true c = false := by
    intro c hc
    by_contra hneeds
    rw [Bool.not_eq_false] at hneeds
    exact Bool.eq_false_iff.1 (hbare c hc) (Query.needsQuotes_of_rangeBound hneeds)
  have hlow : Query.write true low = low :=
    Query.write_bare fun c hc => hbound c (by simp [hc])
  have hhigh : Query.write true high = high :=
    Query.write_bare fun c hc => hbound c (by simp [hc])
  rw [text, text, Query.write_bare hbare, hlow, hhigh]

/-- The values of two comparisons by one operator are never written alike. -/
theorem text_target_inj {operator : Comparison} {value value' : String}
    (heq : (operator.target value).text = (operator.target value').text) : value = value' := by
  cases operator with
  | greater => exact Query.write_inj ((String.append_left_inj _).1 heq)
  | less => exact Query.write_inj ((String.append_right_inj _).1 heq)
  | equals | contains | startsWith | endsWith => exact Query.write_inj heq

end Target

/-! ### The clause of a target -/

namespace Query

/-- The text of a negated clause has one dash more than its field up to the colon. -/
theorem dash_append_ne (field rest rest' : List Char) :
    '-' :: (field ++ rest) ≠ field ++ ':' :: rest' := by
  intro heq
  have hparts : ('-' :: field) ++ rest = (field ++ [':']) ++ rest' := by simpa using heq
  have hnames : '-' :: field = field ++ [':'] := List.append_inj_left hparts (by simp)
  have hdashes := congrArg (List.count '-') hnames
  simp at hdashes

theorem atom_true_ne_atom_false (field text text' : String) :
    Grammar.atom true field text ≠ Grammar.atom false field text' := by
  intro heq
  refine dash_append_ne field.toList (": " ++ text).toList (" " ++ text').toList ?_
  simpa [Grammar.atom, Grammar.mark] using congrArg String.toList heq

theorem atom_inj {negate negate' : Bool} {field text text' : String} :
    Grammar.atom negate field text = Grammar.atom negate' field text' ↔
      negate = negate' ∧ text = text' := by
  constructor
  · intro heq
    have hnegate : negate = negate' := by
      cases negate <;> cases negate'
      · rfl
      · exact absurd heq.symm (atom_true_ne_atom_false _ _ _)
      · exact absurd heq (atom_true_ne_atom_false _ _ _)
      · rfl
    subst hnegate
    rw [Grammar.atom, Grammar.atom, String.append_right_inj] at heq
    exact ⟨rfl, heq⟩
  · rintro ⟨rfl, rfl⟩
    rfl

end Query

variable {g : Grammar} {field : String}

/-- The clause of a comparison or a range of an ordinary field. -/
theorem Grammar.clause_of_target (hordinary : g.kind field = .ordinary) {negate : Bool}
    {condition : Condition} {target : Target} (htarget : condition.target? = some target) :
    g.clause ⟨field, negate, condition⟩ = .ok { text := atom negate field target.text } := by
  have hwritten : ∀ rangeBound text, g.write? field rangeBound text =
      some (Query.write rangeBound text) := by
    intro rangeBound text
    rw [write?, hordinary]
    rfl
  rw [clause_eq_ok_iff]
  rcases condition with ⟨operator, _ | value⟩ | _ | ⟨low, high⟩ | _ <;> cases htarget
  · have hwrites : g.Writes ⟨field, negate, .compare operator (some value)⟩
        { text := atom negate field (comparisonText operator
          (Query.write (isBound operator) value.text)) } := .compare (hwritten _ _)
    cases operator <;> exact hwrites
  · exact .between (hwritten true low.text) (hwritten true high.text)

/-! ### Reading a clause -/

namespace Query

/-- The value or the bound at the beginning of what stands behind a colon, and what stands behind
the separator, if there is one. -/
def readFirst? (text : List Char) : Option (List Char × Option (List Char)) :=
  if text.head? = some '\x22' then
    match readQuoted? text.tail with
    | some (value, []) => some (value, none)
    | some (low, '.' :: '.' :: rest) => some (low, some rest)
    | _ => none
  else
    match range? text with
    | some (low, rest) => some (low, some rest)
    | none => some (text, none)

/-- The bound behind the separator. -/
def readLast? (text : List Char) : Option (List Char) :=
  if text.head? = some '\x22' then
    match readQuoted? text.tail with
    | some (high, []) => some high
    | _ => none
  else some text

/-- The target that is read from what stands behind a colon. -/
def readTarget? (text : List Char) : Option Target :=
  (readFirst? text).bind fun
    | (value, none) => some (.is (String.ofList value))
    | (low, some rest) =>
        (readLast? rest).map fun high => .ofBounds (String.ofList low) (String.ofList high)

/-- The target that is read from the clause of a field, and whether it is negated. -/
def readClause? (field : String) (text : List Char) : Option (Bool × Target) :=
  let name := field.toList ++ [':', ' ']
  let negated := !name.isPrefixOf text
  (readTarget? (text.drop (name.length + negated.toNat))).map fun target => (negated, target)

/-- A text put between quotes, or one that has no separator with what stands behind it. -/
def Closed (rangeBound : Bool) (text behind : List Char) : Prop :=
  text.any (needsQuotes rangeBound) = true ∨ range? (text ++ behind) = none

instance (rangeBound : Bool) (text behind : List Char) :
    Decidable (Closed rangeBound text behind) :=
  inferInstanceAs (Decidable (_ ∨ _))

end Query

namespace Target

open Query (Readable Closed)

/-- What can be read from its text: values that can be read back and do not run into a separator. -/
def Clear : Target → Prop
  | is value => Readable false value.toList ∧ Closed false value.toList []
  | above low => Readable true low.toList ∧ Closed true low.toList ['.']
  | below high => Readable true high.toList
  | between low high =>
      (Readable true low.toList ∧ Closed true low.toList ['.']) ∧ Readable true high.toList

end Target

namespace Query

variable {rangeBound : Bool} {value : List Char}

theorem Readable.readFirst?_eq (hreadable : Readable rangeBound value)
    (hclosed : Closed rangeBound value []) :
    readFirst? (writeOrdinary rangeBound value) = some (value, none) := by
  rcases hreadable.written with ⟨-, hwritten, hread⟩ | ⟨hbare, hwritten, hquote⟩
  · rw [hwritten, readFirst?, List.head?_cons, if_pos rfl, List.tail_cons, hread []]
  · have hsingle : range? value = none := by
      rw [Closed, hbare, List.append_nil] at hclosed
      exact hclosed.resolve_left Bool.false_ne_true
    rw [hwritten, readFirst?, if_neg hquote, hsingle]

theorem Readable.readFirst?_append (hreadable : Readable rangeBound value)
    (hclosed : Closed rangeBound value ['.']) (rest : List Char) :
    readFirst? (writeOrdinary rangeBound value ++ '.' :: '.' :: rest) =
      some (value, some rest) := by
  rcases hreadable.written with ⟨-, hwritten, hread⟩ | ⟨hbare, hwritten, hquote⟩
  · rw [hwritten, readFirst?, List.cons_append, List.head?_cons, if_pos rfl, List.tail_cons,
      List.append_assoc, List.singleton_append, hread]
    rfl
  · have hends : range? (value ++ ['.']) = none := by
      rw [Closed, hbare] at hclosed
      exact hclosed.resolve_left Bool.false_ne_true
    have hhead : (value ++ '.' :: '.' :: rest).head? ≠ some '\x22' := by
      rwa [List.head?_append_of_ne_nil value hreadable.ne_nil]
    rw [hwritten, readFirst?, if_neg hhead, range?_append hends]

theorem Readable.readLast?_eq (hreadable : Readable rangeBound value) :
    readLast? (writeOrdinary rangeBound value) = some value := by
  rcases hreadable.written with ⟨-, hwritten, hread⟩ | ⟨-, hwritten, hquote⟩
  · rw [hwritten, readLast?, List.head?_cons, if_pos rfl, List.tail_cons, hread []]
  · rw [hwritten, readLast?, if_neg hquote]

theorem Readable.ne_empty {text : String} (hreadable : Readable rangeBound text.toList) :
    text ≠ "" := by
  rintro rfl
  exact hreadable.ne_nil rfl

/-- What is asked for can be read from its text if it is clear. -/
theorem readTarget?_of_clear {target : Target} (hclear : target.Clear) :
    readTarget? target.text.toList = some target := by
  cases target with
  | is value =>
      obtain ⟨hreadable, hclosed⟩ := hclear
      simp only [Target.text, write, String.toList_ofList, readTarget?,
        hreadable.readFirst?_eq hclosed, Option.bind_some, String.ofList_toList]
  | above low =>
      obtain ⟨hreadable, hclosed⟩ := hclear
      have hfirst := hreadable.readFirst?_append hclosed []
      have htext : (Target.above low).text.toList =
          writeOrdinary true low.toList ++ ['.', '.'] := by
        simp [Target.text, write]
      have hlast : readLast? [] = some [] := rfl
      rw [htext, readTarget?, hfirst]
      simp [hlast, Target.ofBounds, hreadable.ne_empty]
  | below high =>
      have hfirst : readFirst? ('.' :: '.' :: writeOrdinary true high.toList) =
          some ([], some (writeOrdinary true high.toList)) := rfl
      have htext : (Target.below high).text.toList =
          '.' :: '.' :: writeOrdinary true high.toList := by
        simp [Target.text, write]
      have hlast : readLast? (writeOrdinary true high.toList) = some high.toList :=
        Readable.readLast?_eq hclear
      rw [htext, readTarget?, hfirst]
      simp [hlast, Target.ofBounds]
  | between low high =>
      obtain ⟨⟨hlow, hclosed⟩, hhigh⟩ := hclear
      have hfirst := hlow.readFirst?_append hclosed (writeOrdinary true high.toList)
      have htext : (Target.between low high).text.toList =
          writeOrdinary true low.toList ++ '.' :: '.' :: writeOrdinary true high.toList := by
        simp [Target.text, write]
      rw [htext, readTarget?, hfirst]
      simp [hhigh.readLast?_eq, Target.ofBounds, hlow.ne_empty, hhigh.ne_empty]

theorem readClause?_atom (negate : Bool) (field text : String) :
    readClause? field (Grammar.atom negate field text).toList =
      (readTarget? text.toList).map fun target => (negate, target) := by
  cases negate with
  | false =>
      have htext : (Grammar.atom false field text).toList =
          (field.toList ++ [':', ' ']) ++ text.toList := by
        simp [Grammar.atom, Grammar.mark]
      have hname : (field.toList ++ [':', ' ']).isPrefixOf
          ((field.toList ++ [':', ' ']) ++ text.toList) = true :=
        List.isPrefixOf_iff_prefix.2 (List.prefix_append _ _)
      simp only [readClause?, htext, hname, Bool.not_true, Bool.toNat_false, Nat.add_zero,
        List.drop_left]
  | true =>
      have htext : (Grammar.atom true field text).toList =
          '-' :: ((field.toList ++ [':', ' ']) ++ text.toList) := by
        simp [Grammar.atom, Grammar.mark]
      have hname : (field.toList ++ [':', ' ']).isPrefixOf
          ('-' :: ((field.toList ++ [':', ' ']) ++ text.toList)) = false := by
        rw [Bool.eq_false_iff, ne_eq, List.isPrefixOf_iff_prefix]
        rintro ⟨rest, heq⟩
        refine dash_append_ne field.toList ([':', ' '] ++ text.toList) (' ' :: rest) ?_
        simpa using heq.symm
      simp only [readClause?, htext, hname, Bool.not_false, Bool.toNat_true, List.drop_succ_cons,
        List.drop_left]

end Query

namespace Grammar

/-- How far the comparisons and ranges of a field can be told apart by their clauses. -/
structure ToldApart (g : Grammar) (field : String) : Prop where
  /-- Each has a clause. -/
  clause : ∀ negate condition target, condition.target? = some target →
    g.clause ⟨field, negate, condition⟩ = .ok { text := atom negate field target.text }
  /-- Two have the same clause exactly if they are negated alike and ask for the same, or for what
  is written in the same way. -/
  clause_eq_iff : ∀ negate condition target negate' condition' target',
    condition.target? = some target → condition'.target? = some target' →
      (g.clause ⟨field, negate, condition⟩ = g.clause ⟨field, negate', condition'⟩ ↔
        negate = negate' ∧ (target = target' ∨ target.Confused target' ∨ target'.Confused target))
  /-- Comparisons by the same operator are never written alike. -/
  compare : ∀ operator negate value negate' value',
    g.clause ⟨field, negate, .compare operator (some value)⟩ =
        g.clause ⟨field, negate', .compare operator (some value')⟩ →
      negate = negate' ∧ value.text = value'.text
  /-- What is clear is read from its clause. -/
  read : ∀ negate condition target, condition.target? = some target → target.Clear →
    ∃ c, g.clause ⟨field, negate, condition⟩ = .ok c ∧
      Query.readClause? field c.text.toList = some (negate, target)
  /-- A bare value with two points in it is written like the range of what stands around them. -/
  bare : ∀ negate low high,
    (∀ c ∈ (low ++ ".." ++ high).toList, needsQuotes false c = false) →
      g.clause ⟨field, negate, .compare .equals (some (.str (low ++ ".." ++ high)))⟩ =
        g.clause ⟨field, negate, .between (.str low) (.str high)⟩

/-- The clauses of an ordinary field tell comparisons and ranges apart as far as these are not
confused. -/
theorem clause_toldApart (hordinary : g.kind field = .ordinary) : g.ToldApart field := by
  have hclause : ∀ negate condition target, condition.target? = some target →
      g.clause ⟨field, negate, condition⟩ = .ok { text := atom negate field target.text } :=
    fun negate condition target htarget => clause_of_target hordinary htarget
  have halike : ∀ negate condition target negate' condition' target',
      condition.target? = some target → condition'.target? = some target' →
        (g.clause ⟨field, negate, condition⟩ = g.clause ⟨field, negate', condition'⟩ ↔
          negate = negate' ∧ target.text = target'.text) := by
    intro negate condition target negate' condition' target' htarget htarget'
    rw [hclause _ _ _ htarget, hclause _ _ _ htarget', ← @Query.atom_inj _ _ field]
    simp
  refine ⟨hclause, ?_, ?_, ?_, ?_⟩
  · intro negate condition target negate' condition' target' htarget htarget'
    rw [halike _ _ _ _ _ _ htarget htarget', Target.text_eq_iff]
  · intro operator negate value negate' value' hsame
    obtain ⟨hnegate, htext⟩ := (halike _ _ _ _ _ _ rfl rfl).1 hsame
    exact ⟨hnegate, Target.text_target_inj htext⟩
  · intro negate condition target htarget hclear
    refine ⟨_, hclause _ _ _ htarget, ?_⟩
    rw [Query.readClause?_atom, Query.readTarget?_of_clear hclear, Option.map_some]
  · intro negate low high hbare
    exact (halike _ _ _ _ _ _ rfl rfl).2 ⟨rfl, Target.text_is_of_bare hbare⟩

/-- The bounds of a range of dates are read from its clause. -/
theorem clause_toldApart_january :
    ({} : Grammar).kind "created" = .ordinary ∧
    ∃ c, ({} : Grammar).clause ⟨"created", true, .between (.str "2025-01-01") (.str "2025-02-01")⟩ =
        .ok c ∧
      Query.readClause? "created" c.text.toList =
        some (true, .between "2025-01-01" "2025-02-01") := by
  have hordinary : ({} : Grammar).kind "created" = .ordinary := by decide +kernel
  refine ⟨hordinary, (clause_toldApart hordinary).read true _ _ rfl ?_⟩
  exact ⟨⟨by decide +kernel, by decide +kernel⟩, by decide +kernel⟩

/-- What is written alike: a value with two points in it and a range, a range that is open and one
whose bound is empty, ranges with points in their bounds, and a value with a quote in it and a range
whose lower bound ends in a backslash. -/
theorem clause_notToldApart :
    ({} : Grammar).clause ⟨"created", false, .compare .equals (some (.str "2025..2026"))⟩ =
      ({} : Grammar).clause ⟨"created", false, .between (.str "2025") (.str "2026")⟩ ∧
    ({} : Grammar).clause ⟨"votes", false, .compare .greater (some (.str "10"))⟩ =
      ({} : Grammar).clause ⟨"votes", false, .between (.str "10") (.str "")⟩ ∧
    ({} : Grammar).clause ⟨"build", false, .between (.str "1.") (.str "5")⟩ =
      ({} : Grammar).clause ⟨"build", false, .between (.str "1") (.str ".5")⟩ ∧
    ({} : Grammar).clause ⟨"build", false, .between (.str "1..2") (.str "3")⟩ =
      ({} : Grammar).clause ⟨"build", false, .between (.str "1") (.str "2..3")⟩ ∧
    ({} : Grammar).clause ⟨"path", false, .compare .equals (some (.str "a b\"..c"))⟩ =
      ({} : Grammar).clause ⟨"path", false, .between (.str "a b\\") (.str "c\"")⟩ := by
  refine ⟨?_, ?_, ?_, ?_, ?_⟩ <;> decide +kernel

end Grammar

end IssueSearch
