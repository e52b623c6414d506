import StackExpr.Json
/-!
# Templates

A template declares resources, parameters and outputs, each under a name of its own. Expressions in
it are kept as JSON values.

A `NestedStack` is the template of a stack that another stack declares as one of its resources,
together with the nested stacks it declares in turn. `NestedStack.find?` looks a declaration up by
its logical id anywhere in such a tree, depth first: an entry before what is nested in it, and that
before the next entry. `preorder` lists the tree in that order.
-/

namespace StackExpr

/-- A declared resource. `attributes` are the keys beside its type and its properties. -/
structure Resource where
  type : String
  properties : Dict Json := []
  attributes : Dict Json := []

/-- A declared parameter. -/
structure Parameter where
  type : Option String := none
  default : Option Json := none

/-- A declared output. -/
structure Output where
  value : Json

/-- The sections of a template that evaluation reads. -/
structure Template where
  resources : Dict Resource := []
  parameters : Dict Parameter := []
  outputs : Dict Output := []

namespace Template

/-- The resource declared under a logical id. -/
def resource? (t : Template) (id : String) : Option Resource := t.resources.get? id

/-- The default value of a parameter. -/
def parameterDefault? (t : Template) (name : String) : Option Json :=
  (t.parameters.get? name).bind (·.default)

/-- The expression of an output. -/
def outputValue? (t : Template) (name : String) : Option Json :=
  (t.outputs.get? name).map (·.value)

/-- The expression of a property of a resource. -/
def property? (t : Template) (id property : String) : Option Json :=
  (t.resource? id).bind fun r => r.properties.get? property

end Template

/-- The type of a resource that is itself a stack. -/
def stackType : String := "AWS::CloudFormation::Stack"

/-- A nested stack: the name it is deployed under (none yet, if it is about to be created), its
template and the stacks nested in it. -/
inductive NestedStack where
  | mk (physicalName : Option String) (template : Template) (nested : List (String × NestedStack))

namespace NestedStack

/-- The name the stack is deployed under. -/
def physicalName : NestedStack → Option String
  | mk name _ _ => name

/-- The template of the stack. -/
def template : NestedStack → Template
  | mk _ t _ => t

/-- The stacks nested in the stack, by logical id. -/
def nested : NestedStack → Dict NestedStack
  | mk _ _ ns => ns

/-- The first entry under a logical id in the tree. -/
def find? (id : String) : Dict NestedStack → Option NestedStack
  | [] => none
  | (key, mk name template inner) :: rest =>
    if key = id then some (mk name template inner)
    else (find? id inner).orElse fun _ => find? id rest

/-- The entries of the tree, each before what is nested in it. -/
def preorder : Dict NestedStack → List (String × NestedStack)
  | [] => []
  | (key, mk name template inner) :: rest =>
    (key, mk name template inner) :: preorder inner ++ preorder rest

end NestedStack

end StackExpr
