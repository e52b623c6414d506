import StackExpr.Arn
import StackExpr.Context
import StackExpr.Expr.Evaluate
import StackExpr.Template
/-!
# Evaluating in a stack

An `Evaluator` is bound to one stack: its template, the context it is evaluated in, the stacks
nested in it, and the caches that hold what is known of its deployed state. It tells what the names
in an expression stand for:

* a name — a pseudo parameter, a parameter of the context, a default in the template, or the
  physical id of a deployed resource, whichever comes first
* an attribute of `Outputs` — the value of an output of the stack
* an attribute of a nested stack that begins with `Outputs.` — the value of an output of that stack,
  evaluated in an evaluator of its own
* any other attribute — what follows from the physical id of the deployed resource

## Why the evaluation ends

Expressions lead to other expressions: to outputs, and to the parameters of nested stacks. The
number of times this can happen in a row is `depth`. Whoever opens a stack sets it to `depthFor`,
which is enough for all outputs and nested stacks of the tree one within the other, as often as the
pages of exports can give an import another value.
-/

namespace StackExpr

/-- A stack in which expressions are evaluated. -/
structure Evaluator where
  stackName : String
  template : Template
  context : Context
  nested : Dict NestedStack
  /-- The number of the stack's caches. -/
  caches : Nat
  /-- The number of expressions that may lead to each other. -/
  depth : Nat

/-- How an evaluator evaluates an expression that another one leads to. -/
abbrev Evaluate := Evaluator → Expr → Job Json

namespace Evaluator

/-! ## Depth -/

/-- The steps that can be made one within the other without leaving a stack: to each of its outputs
and to the parameters of each stack in its tree. -/
def ownSteps (template : Template) (nested : Dict NestedStack) : Nat :=
  1 + template.outputs.length + (NestedStack.preorder nested).length

/-- The steps that can be made one within the other in the stacks of a tree. -/
def nestedSteps : Dict NestedStack → Nat
  | [] => 0
  | (_, .mk _ template inner) :: rest =>
    1 + ownSteps template inner + nestedSteps inner + nestedSteps rest

/-- The depth that suffices for a template with nested stacks over a number of pages of exports. -/
def depthFor (pages : Nat) (template : Template) (nested : Dict NestedStack) : Nat :=
  (ownSteps template nested + nestedSteps nested) * (pages + 2)

/-- Opens a stack. -/
def openStack (pages : Nat) (stackName : String) (template : Template) (context : Context)
    (nested : Dict NestedStack) : Job Evaluator :=
  .openStack stackName context.region fun caches =>
    pure { stackName, template, context, nested, caches,
           depth := depthFor pages template nested }

/-! ## Deployed resources -/

/-- The deployed resources of the stack. -/
def inventory (ev : Evaluator) : Job (List StackResource) := Job.query ev.caches .inventory

/-- The deployed resource of a logical id. -/
def deployed? (ev : Evaluator) (id : String) : Job (Option StackResource) := do
  let resources : List StackResource ← ev.inventory
  return resources.find? fun r => r.logicalId == id

/-- The physical id of a deployed resource. -/
def physicalName? (ev : Evaluator) (id : String) : Job (Option String) := do
  return (← ev.deployed? id).bind (·.physicalId)

/-- The logical id of the first deployed resource with a physical id. -/
def logicalId? (ev : Evaluator) (physicalName : String) : Job (Option String) := do
  let resources : List StackResource ← ev.inventory
  return (resources.find? fun r => r.physicalId == some physicalName).map (·.logicalId)

/-- Where the resources of the stack live. -/
def place (ev : Evaluator) : Place := ⟨ev.context.partition, ev.context.region, ev.context.account⟩

/-! ## Nested stacks -/

/-- The values of the parameters that a stack declares for a nested one. -/
def nestedParameters (evaluate : Evaluate) (ev : Evaluator) (id : String) : Job (Dict Json) :=
  match ev.template.property? id "Parameters" with
  | none => pure []
  | some parameters => do
    match ← evaluate ev (Expr.ofJson parameters) with
    | .object values => pure values
    | _ => Job.fail (.invalidArguments stackType ("Parameters of " ++ id ++ " must be an object"))

/-- An evaluator for the nested stack declared under a logical id; `none` if there is no such stack
or it is not deployed yet. The new evaluator has caches of its own. -/
def nestedEvaluator? (evaluate : Evaluate) (ev : Evaluator) (id : String) :
    Job (Option Evaluator) :=
  match NestedStack.find? id ev.nested with
  | some (.mk (some stackName) template inner) => do
    let parameters ← nestedParameters evaluate ev id
    let context := ev.context.withParameters parameters
    Job.openStack stackName context.region fun caches =>
      pure (some { stackName, template, context, nested := inner, caches, depth := ev.depth })
  | _ => pure none

/-- The value of an output of a nested stack. -/
def nestedOutput? (evaluate : Evaluate) (ev : Evaluator) (id output : String) :
    Job (Option Json) := do
  match ← nestedEvaluator? evaluate ev id with
  | none => pure none
  | some child =>
    return some (← evaluate child (.getAttOf "Outputs" (.scalar (.string output))))

/-! ## Names, attributes and exports -/

/-- The value of an attribute, or of a resource without one; `none` if it cannot be told. -/
def attribute? (evaluate : Evaluate) (ev : Evaluator) (id : String) (attr : Option String) :
    Job (Option Json) :=
  match id, attr with
  | "Outputs", some output =>
    match ev.template.outputValue? output with
    | none => pure none
    | some value => do return some (← evaluate ev (Expr.ofJson value))
  | id, attr => do
    match ← ev.deployed? id with
    | none => pure none
    | some resource =>
      let output := attr.bind (Text.dropStart? "Outputs.")
      match resource.type == stackType, output, resource.physicalId with
      | true, some output, _ => nestedOutput? evaluate ev id output
      | _, _, none => pure none
      | _, _, some physicalId =>
        let value? ← Job.ofExcept (Arn.attribute? ev.place resource.type physicalId attr)
        return value?.map .string

/-- The value of a name; `none` if it is neither bound nor deployed. -/
def ref? (evaluate : Evaluate) (ev : Evaluator) (id : String) : Job (Option Json) :=
  if id = urlSuffixName then do
    let suffix : String ← Job.query ev.caches .urlSuffix
    return some (.string suffix)
  else
    match (ev.context.bindings ev.stackName).get? id, ev.template.parameterDefault? id with
    | some value, _ => pure (some value)
    | none, some default => pure (some default)
    | none, none => attribute? evaluate ev id none

/-- The value of an export. -/
def importValue (ev : Evaluator) (name : String) : Job Json := do
  let found : Option Export ← Job.query ev.caches (.exportNamed name)
  match found with
  | none => Job.fail (.exportNotFound name)
  | some ⟨_, none⟩ => Job.fail (.exportWithoutValue name)
  | some ⟨_, some value⟩ => pure (.string value)

/-- What names, attributes and exports stand for in the stack. -/
def resolver (evaluate : Evaluate) (ev : Evaluator) : Resolver where
  ref id := do Job.ofOption (.unresolvedRef id) (← ref? evaluate ev id)
  getAtt id attr := do
    Job.ofOption (.unresolvedAttribute id (attr.getD "")) (← attribute? evaluate ev id attr)
  importValue name := importValue ev name

/-- Evaluates an expression that may lead through `n` others, one within the other. -/
def evaluateAt : (n : Nat) → Evaluate
  | 0, _, _ => .done (.error .tooDeep)
  | n + 1, ev, e => e.evaluate (ev.resolver (evaluateAt n))

/-! ## Questions to an evaluator -/

/-- Evaluates a value. -/
def evaluate (ev : Evaluator) (v : Json) : Job Json :=
  evaluateAt (ev.depth + 1) ev (Expr.ofJson v)

/-- The value of an attribute in the stack. -/
def getAttTarget? (ev : Evaluator) (id : String) (attr : Option String) : Job (Option Json) :=
  attribute? (evaluateAt (ev.depth + 1)) ev id attr

/-- An evaluator for a nested stack. -/
def child? (ev : Evaluator) (id : String) : Job (Option Evaluator) :=
  nestedEvaluator? (evaluateAt (ev.depth + 1)) ev id

/-- The name of a resource, as well as it can be told: the value of the expression for it in the
template, or the physical id of the deployed resource if the expression has no value or none that
is a text. -/
def establishPhysicalName? (ev : Evaluator) (id : String) (name : Option Json) :
    Job (Option String) :=
  match name with
  | none => ev.physicalName? id
  | some expr => do
    match ← Job.outcome (ev.evaluate expr) with
    | .error _ => ev.physicalName? id
    | .ok .null => ev.physicalName? id
    | .ok v =>
      match v.text? with
      | some s => pure (some s)
      | none => ev.physicalName? id

/-- The unevaluated property of a resource of the template. -/
def property? (ev : Evaluator) (id property : String) : Option Json :=
  ev.template.property? id property

end Evaluator

end StackExpr
