import IssueSearch.Filter.Reading
import IssueSearch.Request.Basic
import IssueSearch.Text.Lower
/-!
Requests read from JSON objects. Members go by their wire names or their plain names; what is
absent takes its usual value.
-/
namespace IssueSearch

/-- A direction, in any case. -/
def Direction.read : Json → Reading Direction
  | .str s =>
      match Direction.ofName? (Text.lower s) with
      | some direction => .ok direction
      | none => .refuse .notDirection
  | _ => .refuse .notDirection

def SortKey.read (value : Json) : Reading SortKey :=
  (Reading.object "SortSpec" value).bind fun members =>
    (((FieldName.single "field").required .text members).both
      ((FieldName.single "direction").withDefault .ascending Direction.read members)).map
      fun (field, direction) => ⟨field, direction⟩

def Pagination.read (value : Json) : Reading Pagination :=
  (Reading.object "Pagination" value).bind fun members =>
    (((FieldName.single "limit").withDefault none (.orNull (.count 1)) members).both
      ((FieldName.single "offset").withDefault none (.orNull (.count 0)) members)).map
      fun (limit, offset) => ⟨limit, offset.map Subtype.val⟩

namespace Request

def scopeIdName : FieldName := ⟨"scopeId", "scope_id"⟩
def filtersName : FieldName := .single "filters"
def textSearchName : FieldName := ⟨"textSearch", "text_search"⟩
def sortingName : FieldName := .single "sorting"
def paginationName : FieldName := .single "pagination"
def fieldSelectorName : FieldName := ⟨"fieldSelector", "field_selector"⟩
def includeMetadataName : FieldName := ⟨"includeMetadata", "include_metadata"⟩

/-- A request from the members of an object. -/
def ofMembers (members : List (String × Json)) : Reading Request :=
  ((scopeIdName.withDefault none (.orNull .text) members).both <|
    (filtersName.withDefault [] (.list Filter.read) members).both <|
    (textSearchName.withDefault none (.orNull .text) members).both <|
    (sortingName.withDefault [] (.list SortKey.read) members).both <|
    (paginationName.withDefault {} Pagination.read members).both <|
    (fieldSelectorName.withDefault none (.orNull (.list .text)) members).both <|
    includeMetadataName.withDefault false .flag members).map
    fun (scopeId, filters, textSearch, sorting, pagination, fieldSelector, includeMetadata) =>
      { scopeId, filters, textSearch, sorting, pagination, fieldSelector, includeMetadata }

/-- A request from any value. -/
def read (value : Json) : Reading Request :=
  (Reading.object "QueryRequest" value).bind ofMembers

end Request
end IssueSearch
