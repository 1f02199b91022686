import IssueSearch.Operator
/-!
The reference that callers are shown: fields, operators, example queries and advice.
-/
namespace IssueSearch

structure Guide where
  commonFields : List String
  /-- Each operator with its symbol and an example. -/
  operators : List (Operator × String × String)
  exampleQueries : List String
  usageTips : List String

namespace Guide

def searchFields : List String := [
  "state", "priority", "type", "assignee", "reporter",
  "created", "updated", "resolved", "summary", "description"]

/-- The symbol of an operator and a clause that uses it. -/
def exampleOf : Operator → String × String
  | .compare .equals => (":", "state: Open")
  | .compare .contains => (":", "summary: bug")
  | .compare .startsWith => (":", "summary: login")
  | .compare .endsWith => (":", "summary: timeout")
  | .member .isIn => (",", "state: Open,Done")
  | .member .notIn => ("-", "-state: Resolved,Duplicate")
  | .compare .greater => ("..", "created: 2025-01-01..")
  | .compare .less => ("..", "updated: ..2025-07-01")
  | .between => ("..", "created: 2025-01-01..2025-07-01")
  | .presence .isEmpty => ("has: -", "has: -assignee")
  | .presence .isNotEmpty => ("has:", "has: assignee")

def examples : List String := [
  "state: Open",
  "priority: High",
  "assignee: me",
  "state: Open,Done",
  "priority: High or priority: Critical",
  "created: 2025-01-01..",
  "updated: ..2025-07-01",
  "created: 2025-01-01..2025-07-01",
  "priority: Critical -state: Resolved",
  "has: -assignee priority: High",
  "#crash priority: Critical"]

def tips : List String := [
  "Always include a project filter for best performance",
  "Use the 'in' operator for multiple values of the same field",
  "Use isEmpty/isNotEmpty for field existence (has: -field / has: field)",
  "Dates use YYYY-MM-DD; ranges use '..' with optional open ends",
  "Text search renders as #token and matches summary and description",
  "State values cannot contain spaces; they are never quoted",
  "Use limit/offset pagination for large result sets",
  "Enable include_metadata to see timing and optimisation suggestions"]

/-- The guide, its example queries restricted to a scope if one is given and not empty. -/
def build (scopeId : Option String) (scopeField : String) : Guide where
  commonFields := searchFields
  operators := Operator.all.map fun o => (o, exampleOf o)
  exampleQueries :=
    match scopeId.filter fun scope => !scope.isEmpty with
    | some scope => examples.map fun query => scopeField ++ ": " ++ scope ++ " " ++ query
    | none => examples
  usageTips := tips

end Guide
end IssueSearch
