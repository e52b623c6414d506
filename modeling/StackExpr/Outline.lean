import StackExpr.Json
import StackExpr.State
import StackExpr.Text.Quoted
/-!
# Outlines

An outline shows a value with all its parts, for those who develop templates: every part on a line
of its own with its label, what belongs to it indented by four. The outlines of templates and states
are defined below.
-/

namespace StackExpr

/-- A text, or labelled parts between a beginning and an end. -/
inductive Outline where
  | leaf (text : String)
  | group (start finish : String) (parts : List (String × Outline))

namespace Outline

/-- A line break and the indentation of a level. -/
def newLine (level : Nat) : String := "\n" ++ String.ofList (List.replicate (4 * level) ' ')

mutual

/-- The text of an outline at a level. -/
def textAt (level : Nat) : Outline → String
  | leaf text => text
  | group start finish [] => start ++ finish
  | group start finish (p :: ps) =>
    start ++ partsAt (level + 1) (p :: ps) ++ newLine level ++ finish

/-- The texts of parts, each on lines of its own. -/
def partsAt (level : Nat) : List (String × Outline) → String
  | [] => ""
  | (label, part) :: parts =>
    newLine level ++ label ++ textAt level part ++ "," ++ partsAt level parts

end

/-- The text of an outline. -/
def text (o : Outline) : String := o.textAt 0

/-! ## Building blocks -/

/-- A string. -/
def ofString (s : String) : Outline := leaf (Text.display s)

/-- A value that may be absent. -/
def ofOption {α : Type} (part : α → Outline) : Option α → Outline
  | none => leaf "None"
  | some x => group "Some(" ")" [("", part x)]

/-- A list. -/
def ofList {α : Type} (part : α → Outline) (xs : List α) : Outline :=
  group "[" "]" (xs.map fun x => ("", part x))

/-- The label of a key. -/
def keyLabel (key : String) : String := Text.display key ++ ": "

/-- A dictionary. -/
def ofDict {α : Type} (part : α → Outline) (d : Dict α) : Outline :=
  group "\x7b" "\x7d" (d.map fun (k, v) => (keyLabel k, part v))

/-- A record with named fields. -/
def record (name : String) (fields : List (String × Outline)) : Outline :=
  group (name ++ " \x7b") "\x7d" (fields.map fun (field, part) => (field ++ ": ", part))

mutual

/-- A JSON value. -/
def ofJson : Json → Outline
  | .null => leaf "Null"
  | .bool b => leaf (if b then "Bool(true)" else "Bool(false)")
  | .number n => leaf ("Number(" ++ String.ofList (n.text Binary64.jsonLayout) ++ ")")
  | .string s => leaf ("String(" ++ Text.display s ++ ")")
  | .array vs => group "Array [" "]" (ofElements vs)
  | .object fs => group "Object \x7b" "\x7d" (ofFields fs)

/-- Elements of a list. -/
def ofElements : List Json → List (String × Outline)
  | [] => []
  | v :: vs => ("", ofJson v) :: ofElements vs

/-- Fields of an object. -/
def ofFields : List (String × Json) → List (String × Outline)
  | [] => []
  | (k, v) :: fs => (keyLabel k, ofJson v) :: ofFields fs

end

/-- An object without its name. -/
def ofObject (fs : Dict Json) : Outline := group "\x7b" "\x7d" (ofFields fs)

/-! ## Templates -/

/-- A resource. -/
def ofResource (r : Resource) : Outline :=
  record "ResourceDefinition" [("resource_type", ofString r.type),
    ("properties", ofObject r.properties), ("attributes", ofObject r.attributes)]

/-- A parameter. -/
def ofParameter (p : Parameter) : Outline :=
  record "ParameterDefinition" [("parameter_type", ofOption ofString p.type),
    ("default", ofOption ofJson p.default)]

/-- An output. -/
def ofOutput (o : Output) : Outline := record "OutputDefinition" [("value", ofJson o.value)]

/-- A template. -/
def ofTemplate (t : Template) : Outline :=
  record "Template" [("resources", ofDict ofResource t.resources),
    ("parameters", ofDict ofParameter t.parameters), ("outputs", ofDict ofOutput t.outputs)]

/-! ## States -/

/-- A deployed resource. -/
def ofStackResource (r : StackResource) : Outline :=
  record "StackResourceSummary" [("logical_resource_id", ofString r.logicalId),
    ("physical_resource_id", ofOption ofString r.physicalId),
    ("resource_type", ofString r.type)]

/-- An export. -/
def ofExport (e : Export) : Outline :=
  record "Export" [("name", ofOption ofString e.name), ("value", ofOption ofString e.value)]

/-- What is deployed, to which no request was made yet. -/
def ofCloud (c : Cloud) : Outline :=
  record "InMemoryClient" [("stack_resources", ofDict (ofList ofStackResource) c.inventories),
    ("export_pages", ofList (ofList ofExport) c.exportPages),
    ("url_suffix", ofOption ofString c.urlSuffix), ("stack_resource_requests", leaf "0"),
    ("export_requests", leaf "0"), ("url_suffix_requests", leaf "0")]

mutual

/-- A nested stack. -/
def ofNestedStack : NestedStack → Outline
  | .mk name template nested =>
    record "NestedStackTemplates" [("physical_name", ofOption ofString name),
      ("generated_template", ofTemplate template),
      ("nested_stack_templates", group "\x7b" "\x7d" (ofNestedStacks nested))]

/-- Nested stacks by logical id. -/
def ofNestedStacks : Dict NestedStack → List (String × Outline)
  | [] => []
  | (id, ns) :: rest => (keyLabel id, ofNestedStack ns) :: ofNestedStacks rest

end

/-- A state. -/
def ofState (s : State) : Outline :=
  record "State" [("client", ofCloud s.cloud),
    ("nested_stacks", group "\x7b" "\x7d" (ofNestedStacks s.nested))]

end Outline

end StackExpr
