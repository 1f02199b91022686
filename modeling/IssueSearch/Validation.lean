import IssueSearch.Request.Reading
/-!
Checks of a request before it is compiled: errors forbid its execution, warnings only advise. A
request may come as a value, which is read first; what cannot be read is an error as well.
-/
namespace IssueSearch

/-- What the checks go by. -/
structure Validation.Settings where
  /-- The field that restricts a search to one container. -/
  scopeField : String := "project"
  maxLimit : Int := 1000
deriving DecidableEq, Repr

/-- What the checks found. -/
structure Validation where
  errors : List String := []
  warnings : List String := []
  /-- The request that was checked, unless it could not be read. -/
  request : Option Request := none

namespace Validation

def noScope : String := "No project filter specified - query may be slow"

def largeLimit : String :=
  "Large limit specified - consider pagination for better performance"

def valid (v : Validation) : Bool := v.errors.isEmpty

/-- Whether a filter compares with a value that was left out. -/
def lacksValue (f : Filter) : Bool :=
  match f.condition with
  | .compare _ none => true
  | _ => false

/-- What is wrong with the filter at a position: a blank field, else a missing value. -/
def filterError? (i : Nat) (f : Filter) : Option String :=
  if Text.allBlank f.field then
    some ("Invalid filter at index " ++ toString i ++ ": missing field (operator '" ++
      f.operator.name ++ "')")
  else if lacksValue f then
    some ("Invalid filter at index " ++ toString i ++ ": field '" ++ f.field ++
      "' with operator '" ++ f.operator.name ++ "' has no value")
  else none

/-- The errors of filters at the positions from `i` on. -/
def filterErrors : (i : Nat) → List Filter → List String
  | _, [] => []
  | i, f :: rest => (filterError? i f).toList ++ filterErrors (i + 1) rest

/-- Whether a request is restricted by its scope or by a filter on the scope field that is not
marked as negated. -/
def isScoped (settings : Settings) (r : Request) : Bool :=
  r.scopeId.any (fun scope => !scope.isEmpty) ||
    r.filters.any fun f => Text.lower f.field == Text.lower settings.scopeField && !f.negate

def isLarge (settings : Settings) (r : Request) : Bool :=
  r.pagination.limit.any fun n => settings.maxLimit < (n.val : Int)

/-- Checks a request. -/
def ofRequest (settings : Settings) (r : Request) : Validation where
  errors := filterErrors 0 r.filters
  warnings :=
    (if isScoped settings r then [] else [noScope]) ++
      (if isLarge settings r then [largeLimit] else [])
  request := some r

/-- Why a value is no table of members. -/
inductive TableError where
  | notWalkable (value : Json)
  | notPair (i : Nat)
  | wrongLength (i length : Nat)
  | unusableKey (key : Json)

def TableError.message : TableError → String
  | notWalkable value => "'" ++ value.kindName ++ "' object is not iterable"
  | notPair i =>
      "cannot convert dictionary update sequence element #" ++ toString i ++ " to a sequence"
  | wrongLength i length =>
      "dictionary update sequence element #" ++ toString i ++ " has length " ++ toString length ++
        "; 2 is required"
  | unusableKey key => "unhashable type: '" ++ key.kindName ++ "'"

/-- Adds a pair to the members; keys that are no texts name no member. -/
def addPair (members : List (String × Json)) (key value : Json) :
    Except TableError (List (String × Json)) :=
  match key with
  | .str name => .ok (Json.insertMember members name value)
  | .arr _ | .obj _ => .error (.unusableKey key)
  | _ => .ok members

/-- The members that pairs of a name and a value make, from the position `i` on. -/
def membersOfPairs : (i : Nat) → List (String × Json) → List Json →
    Except TableError (List (String × Json))
  | _, members, [] => .ok members
  | i, members, pair :: rest =>
      match pair.elements? with
      | none => .error (.notPair i)
      | some [key, value] => (addPair members key value).bind fun added =>
          membersOfPairs (i + 1) added rest
      | some other => .error (.wrongLength i other.length)

/-- The members of an object, or those that a walk of pairs makes. -/
def membersOf : Json → Except TableError (List (String × Json))
  | .obj members => .ok members
  | value =>
      match value.elements? with
      | some pairs => membersOfPairs 0 [] pairs
      | none => .error (.notWalkable value)

/-- Reads and checks a request. -/
def ofJson (settings : Settings) (value : Json) : Validation :=
  match membersOf value with
  | .error e => { errors := [e.message] }
  | .ok members =>
      match Request.ofMembers members with
      | .error faults => { errors := faults.map Fault.message }
      | .ok r => ofRequest settings r

end Validation
end IssueSearch
