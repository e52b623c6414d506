import StackExpr.Cloud
import StackExpr.Json
/-!
# The deployed state as a value

The JSON values that the deployed state and its parts are written as. Every field is there; what is
absent is null.
-/

namespace StackExpr

/-- A deployed resource as a value. -/
def StackResource.toJson (r : StackResource) : Json :=
  .object [("LogicalResourceId", .string r.logicalId), ("PhysicalResourceId", .ofText? r.physicalId),
    ("ResourceType", .string r.type)]

/-- An export as a value. -/
def Export.toJson (e : Export) : Json :=
  .object [("Name", .ofText? e.name), ("Value", .ofText? e.value)]

/-- The deployed state as a value. -/
def Cloud.toJson (c : Cloud) : Json :=
  .object [("stack_resources", .object (c.inventories.mapValues fun rs => .array (rs.map (·.toJson)))),
    ("export_pages", .array (c.exportPages.map fun page => .array (page.map (·.toJson)))),
    ("url_suffix", .ofText? c.urlSuffix)]

end StackExpr
