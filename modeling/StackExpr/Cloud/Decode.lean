import StackExpr.Cloud
import StackExpr.Doc
/-!
# Reading the deployed state

The deployed state as a document: the resources of each stack, the exports in pages, the URL suffix.
What is missing is empty.
-/

namespace StackExpr

/-- The deployed resource that a document describes. -/
def StackResource.ofDoc? (d : Doc) : Option StackResource := do
  match ← d.members? ["LogicalResourceId", "PhysicalResourceId", "ResourceType"] with
  | [logicalId, physicalId, type] =>
    return ⟨← Doc.required Doc.text? logicalId, ← Doc.orDefault none Doc.optionalText? physicalId,
      ← Doc.required Doc.text? type⟩
  | _ => none

/-- The export that a document describes. -/
def Export.ofDoc? (d : Doc) : Option Export := do
  match ← d.members? ["Name", "Value"] with
  | [name, value] =>
    return ⟨← Doc.orDefault none Doc.optionalText? name,
      ← Doc.orDefault none Doc.optionalText? value⟩
  | _ => none

/-- The deployed state with these fields. Pages that have no index are refused. -/
def Cloud.ofMembers? (inventories exportPages urlSuffix : Option Doc) : Option Cloud := do
  let inventories ← Doc.orDefault [] (Doc.dict? (Doc.listOf? StackResource.ofDoc?)) inventories
  let exportPages ← Doc.orDefault [] (Doc.listOf? (Doc.listOf? Export.ofDoc?)) exportPages
  let urlSuffix ← Doc.orDefault none Doc.optionalText? urlSuffix
  if h : exportPages.length < UInt64.size then
    return { inventories, exportPages, urlSuffix, pages_lt := h }
  else none

/-- The fields of the deployed state, in order. -/
def Cloud.fieldNames : List String := ["stack_resources", "export_pages", "url_suffix"]

/-- The deployed state that a document describes. -/
def Cloud.ofDoc? (d : Doc) : Option Cloud := do
  match ← d.members? fieldNames with
  | [inventories, exportPages, urlSuffix] => ofMembers? inventories exportPages urlSuffix
  | _ => none

end StackExpr
