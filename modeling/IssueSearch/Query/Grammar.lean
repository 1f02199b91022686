import IssueSearch.Filter.Basic
import IssueSearch.Text.Lower
/-!
How values are written in the backend's query language. A value with a character that the language
gives a meaning is put between double quotes, unless its field takes bare words only.
-/
namespace IssueSearch

/-- What a field lets stand behind its colon. -/
inductive FieldKind where
  /-- Bare words only, and no blanks: the values are names of a fixed set. -/
  | exempt
  /-- Bare text only. -/
  | unquoted
  /-- Bare words, and quoted text. -/
  | ordinary
deriving DecidableEq, Repr

/-- The settings of the query language. Field names are compared without regard to case. -/
structure Grammar where
  /-- The field that a request's scope is written for. -/
  scopeField : String := "project"
  exemptFields : List String := ["state"]
  unquotedFields : List String := ["priority"]
deriving DecidableEq, Repr

namespace Grammar

def isExempt (g : Grammar) (field : String) : Bool :=
  (g.exemptFields.map Text.lower).contains (Text.lower field)

def kind (g : Grammar) (field : String) : FieldKind :=
  if g.isExempt field then .exempt
  else if (g.unquotedFields.map Text.lower).contains (Text.lower field) then .unquoted
  else .ordinary

end Grammar

namespace Query

/-- The characters that a bare value may not have. A bound of a range may have a dash, so that
dates stay bare. -/
def needsQuotes (rangeBound : Bool) (c : Char) : Bool :=
  Text.isBlank c || c = ':' || c = '\x7b' || c = '\x7d' || (!rangeBound && c = '-')

/-- A character between quotes: a quote is kept apart by a backslash. -/
def quotedChar (c : Char) : List Char := if c = '\x22' then ['\\', '\x22'] else [c]

/-- A value of an ordinary field. -/
def writeOrdinary (rangeBound : Bool) (text : List Char) : List Char :=
  if text.any (needsQuotes rangeBound) then '\x22' :: text.flatMap quotedChar ++ ['\x22'] else text

end Query

/-- The written form of a value behind `field:`; none for a blank in a value of an exempt field. -/
def Grammar.write? (g : Grammar) (field : String) (rangeBound : Bool) (text : String) :
    Option String :=
  match g.kind field with
  | .exempt => if Text.hasBlank text then none else some text
  | .unquoted => some text
  | .ordinary => some (String.ofList (Query.writeOrdinary rangeBound text.toList))

end IssueSearch
