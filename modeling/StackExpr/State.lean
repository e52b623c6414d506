import StackExpr.Cloud.Decode
import StackExpr.Template.Decode
/-!
# State files

A state file describes what is deployed: the fields of the deployed state and, beside them, the
nested stacks. It is always a map. Unlike in a file of its own, the deployed state is read from a
settled document: what an unquoted scalar is taken for does not depend on who reads it.
-/

namespace StackExpr

/-- The content of a state file. -/
structure State where
  cloud : Cloud := {}
  nested : Dict NestedStack := []

/-- The key of the nested stacks in a state file. -/
def State.nestedKey : String := "nested_stacks"

/-- The state that a document describes. -/
def State.ofDoc? (d : Doc) : Option State := do
  let entries ← d.entries?
  let nested ← Doc.orDefault [] NestedStack.dictOfDoc? (← Doc.field? nestedKey entries)
  let others := entries.filter fun e => e.1 != nestedKey
  let settled ← others.mapM fun (k, d) => do return (k, ← d.settle?)
  match ← Cloud.fieldNames.mapM fun name => Doc.field? name settled with
  | [inventories, exportPages, urlSuffix] =>
    return ⟨← Cloud.ofMembers? inventories exportPages urlSuffix, nested⟩
  | _ => none

end StackExpr
