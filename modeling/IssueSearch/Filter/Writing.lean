import IssueSearch.Filter.Basic
/-!
Filters written as JSON objects, in the form that `Filter.read` reads back.
-/
namespace IssueSearch

/-- The member that holds the values of a condition; a condition on presence has none. -/
def Condition.valueMembers : Condition → List (String × Json)
  | .compare _ value => [("value", (value.map Scalar.toJson).getD .null)]
  | .member _ first rest => [("value", .arr ((first :: rest).map Scalar.toJson))]
  | .between low high => [("value", .arr [low.toJson, high.toJson])]
  | .presence _ => []

def Filter.toJson (f : Filter) : Json :=
  .obj ([("field", .str f.field), ("operator", .str f.operator.name), ("negate", .bool f.negate)]
    ++ f.condition.valueMembers)

end IssueSearch
