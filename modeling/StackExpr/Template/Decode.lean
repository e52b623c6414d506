import StackExpr.Doc
import StackExpr.Template
/-!
# Reading templates

Templates and nested stacks as documents. Every record may be given as a map or as the list of its
fields in order; a resource is always a map, because it may have any keys besides its own.

* A section or field that is missing is empty; a section that is null is an error.
* The type of a resource and the value of an output must be there.

## Why the recursion ends

Nested stacks are read by recursion on a bound on their levels, the height of the document.
-/

namespace StackExpr

/-! ## Templates -/

/-- The keys of a resource that are not attributes. -/
def Resource.ownKeys : List String := ["Type", "Properties"]

/-- The resource that a document describes. -/
def Resource.ofDoc? (d : Doc) : Option Resource := do
  let entries ← d.entries?
  let type ← Doc.required Doc.text? (← Doc.field? "Type" entries)
  let properties ← Doc.orDefault [] (Doc.dict? Doc.toJson?) (← Doc.field? "Properties" entries)
  let others := entries.filter fun e => !ownKeys.contains e.1
  let attributes ← others.mapM fun (k, d) => do return (k, ← (← d.settle?).toJson?)
  return ⟨type, properties, Dict.ofEntries attributes⟩

/-- The parameter that a document describes. -/
def Parameter.ofDoc? (d : Doc) : Option Parameter := do
  match ← d.members? ["Type", "Default"] with
  | [type, default] =>
    return ⟨← Doc.orDefault none Doc.optionalText? type,
      ← Doc.orDefault none Doc.optionalJson? default⟩
  | _ => none

/-- The output that a document describes. -/
def Output.ofDoc? (d : Doc) : Option Output := do
  match ← d.members? ["Value"] with
  | [value] => return ⟨← Doc.required Doc.toJson? value⟩
  | _ => none

/-- The template that a document describes. -/
def Template.ofDoc? (d : Doc) : Option Template := do
  match ← d.members? ["Resources", "Parameters", "Outputs"] with
  | [resources, parameters, outputs] =>
    return ⟨← Doc.orDefault [] (Doc.dict? Resource.ofDoc?) resources,
      ← Doc.orDefault [] (Doc.dict? Parameter.ofDoc?) parameters,
      ← Doc.orDefault [] (Doc.dict? Output.ofDoc?) outputs⟩
  | _ => none

/-! ## Nested stacks -/

namespace NestedStack

/-- The nested stack that a document of at most `levels` levels describes. -/
def ofDocWithin? : (levels : Nat) → Doc → Option NestedStack
  | 0, _ => none
  | levels + 1, d => do
    match ← d.members? ["physical_name", "generated_template", "nested_stack_templates"] with
    | [name, template, nested] =>
      return .mk (← Doc.orDefault none Doc.optionalText? name)
        (← Doc.orDefault {} Template.ofDoc? template)
        (← Doc.orDefault [] (Doc.dict? (ofDocWithin? levels)) nested)
    | _ => none

/-- The nested stacks that a document describes, by logical id. -/
def dictOfDoc? (d : Doc) : Option (Dict NestedStack) :=
  Doc.dict? (ofDocWithin? (d.height + 1)) d

end NestedStack

end StackExpr
