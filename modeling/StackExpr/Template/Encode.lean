import StackExpr.Template
/-!
# Templates as values

The JSON values that templates and nested stacks are written as.

* A template has all three sections, a nested stack all three fields.
* A resource has its type, its properties unless there are none, and its attributes.
* A parameter has what was given.
-/

namespace StackExpr

/-- The fields of a resource. -/
def Resource.fields (r : Resource) : List (String × Json) :=
  ("Type", .string r.type) ::
    ((if r.properties.isEmpty then [] else [("Properties", .object r.properties)]) ++ r.attributes)

/-- The fields of a parameter. -/
def Parameter.fields (p : Parameter) : List (String × Json) :=
  (p.type.map fun s => ("Type", .string s)).toList ++
    (p.default.map fun v => ("Default", v)).toList

/-- The fields of an output. -/
def Output.fields (o : Output) : List (String × Json) := [("Value", o.value)]

/-- A template as a value. -/
def Template.toJson (t : Template) : Json :=
  .object [("Resources", .object (t.resources.mapValues fun r => .object r.fields)),
    ("Parameters", .object (t.parameters.mapValues fun p => .object p.fields)),
    ("Outputs", .object (t.outputs.mapValues fun o => .object o.fields))]

/-- The fields of a reference: the id of the resource, then the resource. -/
def Resource.referenceFields (id : String) (r : Resource) : List (String × Json) :=
  ("logical_id", .string id) :: r.fields

/-- A reference as a value. A text has all its fields; a value has each key once, with the last of
its values. -/
def Resource.reference (id : String) (r : Resource) : Json :=
  .object (Dict.ofEntries (r.referenceFields id))

namespace NestedStack

mutual

/-- A nested stack as a value. -/
def toJson : NestedStack → Json
  | mk name template nested =>
    .object [("physical_name", .ofText? name), ("generated_template", template.toJson),
      ("nested_stack_templates", .object (fieldsOf nested))]

/-- Nested stacks as fields. -/
def fieldsOf : Dict NestedStack → List (String × Json)
  | [] => []
  | (id, ns) :: rest => (id, toJson ns) :: fieldsOf rest

end

/-- Nested stacks as a value. -/
def dictToJson (nested : Dict NestedStack) : Json := .object (fieldsOf nested)

end NestedStack

end StackExpr
