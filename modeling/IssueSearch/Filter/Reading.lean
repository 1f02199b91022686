import IssueSearch.Reading.Value
/-!
Filters read from JSON. The operator decides the shape, and the shape decides which value is
expected; `Filter.ofMembers` reads a filter of a shape fixed beforehand, `Filter.read` one whose
shape its operator names, and `Filter.build` also says which operators there are.
-/
namespace IssueSearch.Filter

/-- The operator of a filter of the given shape. -/
def readOperator {α : Type} (shape : Shape) (pick : Operator → Option α) (value : Json) :
    Reading α :=
  match Operator.ofJson? value with
  | none => .refuse .notOperator
  | some operator =>
      match pick operator with
      | some a => .ok a
      | none => .refuse (.wrongShape operator shape)

def comparison? : Operator → Option Comparison
  | .compare c => some c
  | _ => none

def membership? : Operator → Option Membership
  | .member m => some m
  | _ => none

def between? : Operator → Option Unit
  | .between => some ()
  | _ => none

def presence? : Operator → Option Presence
  | .presence p => some p
  | _ => none

/-- At least one scalar; a scalar by itself counts as a list of one. A list in which no item is a
scalar is also too short. -/
def readValues (value : Json) : Reading (Scalar × List Scalar) :=
  match Scalar.ofJson? value, value with
  | some s, _ => .ok (s, [])
  | none, .arr items =>
      match Reading.items Reading.scalar 0 items with
      | .ok (first :: rest) => .ok (first, rest)
      | .ok [] => .refuse .tooShort
      | .error faults =>
          if items.any fun item => (Scalar.ofJson? item).isSome then .error faults
          else .error (faults ++ [⟨[], .tooShort⟩])
  | none, _ => .refuse .notList

/-- The bound at a position that may be past the end of the list. -/
def readBound (i : Nat) : Option Json → Reading Scalar
  | some value => (Reading.scalar value).below (.index i)
  | none => .error [⟨[.index i], .missing⟩]

/-- Exactly two scalars. -/
def readBounds : Json → Reading (Scalar × Scalar)
  | .arr xs =>
      if 2 < xs.length then .refuse (.tooLong xs.length)
      else (readBound 0 xs[0]?).both (readBound 1 xs[1]?)
  | _ => .refuse .notList

/-- The members that every filter has, the value apart. -/
def readHead {α : Type} (shape : Shape) (pick : Operator → Option α)
    (members : List (String × Json)) : Reading (String × α × Bool) :=
  ((FieldName.single "field").required .text members).both
    (((FieldName.single "operator").required (readOperator shape pick) members).both
      ((FieldName.single "negate").withDefault false .flag members))

/-- A filter of a given shape. -/
def ofMembers (members : List (String × Json)) : Shape → Reading Filter
  | .scalar =>
      ((readHead .scalar comparison? members).both
        ((FieldName.single "value").withDefault none (.orNull .scalar) members)).map
        fun ((field, operator, negate), value) => ⟨field, negate, .compare operator value⟩
  | .list =>
      ((readHead .list membership? members).both
        ((FieldName.single "value").required readValues members)).map
        fun ((field, operator, negate), (first, rest)) =>
          ⟨field, negate, .member operator first rest⟩
  | .range =>
      ((readHead .range between? members).both
        ((FieldName.single "value").required readBounds members)).map
        fun ((field, _, negate), (low, high)) => ⟨field, negate, .between low high⟩
  | .existence =>
      (readHead .existence presence? members).map
        fun (field, operator, negate) => ⟨field, negate, .presence operator⟩

/-- A filter of a given shape, from any value. -/
def ofShape (shape : Shape) (value : Json) : Reading Filter :=
  (Reading.object shape.filterName value).bind fun members => ofMembers members shape

/-- The operator that an object names; nothing else names one. -/
def operatorOf? : Json → Option Operator
  | .obj members => (members.lookup "operator").bind Operator.ofJson?
  | _ => none

/-- A filter of the shape that its operator names. -/
def read (value : Json) : Reading Filter :=
  match operatorOf? value with
  | none => .refuse .unknownShape
  | some operator => (ofShape operator.shape value).below (.key operator.shape.tag)

/-- Why a filter could not be built. -/
inductive BuildError where
  | unknownOperator (cause : UnknownOperator)
  | malformed (faults : List Fault)

/-- A filter from a value. An object is asked for its operator first. -/
def build (value : Json) : Except BuildError Filter := do
  if let .obj members := value then
    let raw := (members.lookup "operator").getD .null
    let _ ← (Operator.parse raw).mapError .unknownOperator
  (read value).mapError .malformed

/-- A built filter as one of a given shape: it is taken as it is, or not at all. -/
def ofBuilt (shape : Shape) (f : Filter) : Reading Filter :=
  if f.condition.shape = shape then .ok f else .refuse (.notObject shape.filterName)

/-- A filter from one that has been built, in the shape that its operator names. -/
def rebuild (f : Filter) : Except BuildError Filter :=
  ((ofBuilt f.operator.shape f).below (.key f.operator.shape.tag)).mapError .malformed

end IssueSearch.Filter
