/-!
JSON values: what requests arrive as and what records, payloads and cache parameters are made of.
Integers and doubles are kept apart, and members keep their order.
-/
namespace IssueSearch

inductive Json where
  | null
  | bool (value : Bool)
  | int (value : Int)
  | float (value : Float)
  | str (value : String)
  | arr (items : List Json)
  | obj (members : List (String × Json))
  /-- A value that JSON cannot express, known only by its text. -/
  | foreign (text : String)
deriving Inhabited

namespace Json

/-- Members under one name each: a later value takes the place of an earlier one. -/
def insertMember (members : List (String × Json)) (key : String) (value : Json) :
    List (String × Json) :=
  if members.any (·.1 == key) then
    members.map fun member => if member.1 == key then (key, value) else member
  else members ++ [(key, value)]

/-- The empty values: nothing, false, zero, no characters, no items. -/
def isFalsy : Json → Bool
  | null => true
  | bool b => !b
  | int n => n == 0
  | float x => x == 0
  | str s => s.isEmpty
  | arr items => items.isEmpty
  | obj members => members.isEmpty
  | foreign _ => false

/-- How messages name the kind of a value. -/
def kindName : Json → String
  | null => "NoneType"
  | bool _ => "bool"
  | int _ => "int"
  | float _ => "float"
  | str _ => "str"
  | arr _ => "list"
  | obj _ => "dict"
  | foreign _ => "object"

/-- The values met when a value is walked through: items of an array, characters of a text, names
of members. Other values cannot be walked. -/
def elements? : Json → Option (List Json)
  | str s => some (s.toList.map fun c => str (String.singleton c))
  | arr items => some items
  | obj members => some (members.map fun member => str member.1)
  | _ => none

end Json
end IssueSearch
