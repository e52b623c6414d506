import StackExpr.Evaluator
import StackExpr.Proofs.Answers
/-!
# Plain evaluation

What an expression is worth, told without caches and without anything that runs side by side: names
and attributes are looked up in the resources that the cloud lists for the stack, imports in all
pages of exports at once, and everything is evaluated one after the other. A stack is a `Stack`, a
stack nested in it is the `Stack` made from the declaration that `NestedStack.find?` finds.

`Plain.evaluateAt n` may lead through `n` expressions, one within the other; `Plain.Gives` is the
value that is reached with any number of them.
-/

namespace StackExpr

/-- A stack in which expressions are evaluated. -/
structure Stack where
  name : String
  template : Template
  context : Context
  nested : Dict NestedStack

/-- The stack of an evaluator. -/
def Evaluator.stack (ev : Evaluator) : Stack := ⟨ev.stackName, ev.template, ev.context, ev.nested⟩

namespace Plain

/-- What names, attributes and exports are worth. -/
structure Meaning where
  ref : (id : String) → Option Json
  getAtt : (id : String) → (attr : Option String) → Option Json
  importValue : (name : String) → Option Json

/-- What a placeholder that is no variable is worth. -/
def Meaning.target (m : Meaning) : Sub.Target → Option Json
  | .ref id => m.ref id
  | .getAtt id attr => m.getAtt id (some attr)

/-! ## Expressions -/

/-- The text of segments, each placeholder replaced by the text of its value. -/
def substitute (m : Meaning) (vars : Dict Json) : List Sub.Segment → Option String
  | [] => some ""
  | .literal text :: segments => do
    let rest ← substitute m vars segments
    return text ++ rest
  | .placeholder name :: segments => do
    let v ← (vars.get? name).elim (m.target (.ofPlaceholder name)) some
    let text ← (substituted name v).toOption
    let rest ← substitute m vars segments
    return text ++ rest

mutual

/-- The value of an expression. -/
def value (m : Meaning) : Expr → Option Json
  | .scalar v => some v
  | .list elements => do return .array (← values m elements)
  | .record fields => do return .object (← fieldValues m fields)
  | .ref id => m.ref id
  | .getAtt id => m.getAtt id none
  | .getAttOf id attr => do
    let attr ← (Function.getAtt.stringOf (← value m attr)).toOption
    m.getAtt id (some attr)
  | .join delimiter items => do
    let vs ← (Function.join.listOf (← value m items)).toOption
    (joined delimiter vs).toOption
  | .split delimiter text => do
    let s ← (Function.split.stringOf (← value m text)).toOption
    return .array ((pieces delimiter s).map .string)
  | .select index items => do
    let i ← (Function.select.indexOf (← value m index)).toOption
    let vs ← (Function.select.listOf (← value m items)).toOption
    (selected i vs).toOption
  | .sub template => do return .string (← substitute m [] (Sub.parse template))
  | .subWith template bindings => do
    let vars ← (Function.sub.variablesOf (← value m bindings)).toOption
    return .string (← substitute m vars (Sub.parse template))
  | .importValue name => do
    let name ← (Function.importValue.stringOf (← value m name)).toOption
    m.importValue name
  | .invalid _ => none

/-- The values of list elements. -/
def values (m : Meaning) : List Expr → Option (List Json)
  | [] => some []
  | e :: es => do
    let v ← value m e
    let rest ← values m es
    return v :: rest

/-- The values of fields. -/
def fieldValues (m : Meaning) : List (String × Expr) → Option (List (String × Json))
  | [] => some []
  | (k, e) :: fs => do
    let v ← value m e
    let rest ← fieldValues m fs
    return (k, v) :: rest

end

theorem values_eq_some {m : Meaning} {es : List Expr} {vs : List Json}
    (h : List.Forall₂ (fun e v => value m e = some v) es vs) : values m es = some vs := by
  induction h with
  | nil => rfl
  | cons hv _ ih => simp [values, hv, ih]

theorem values_eq_none {m : Meaning} {es : List Expr} {e : Expr} (he : e ∈ es)
    (h : value m e = none) : values m es = none := by
  induction es with
  | nil => exact absurd he List.not_mem_nil
  | cons e' es ih =>
    rcases List.mem_cons.mp he with rfl | he
    · simp [values, h]
    · cases hv : value m e' <;> simp [values, hv, ih he]

/-! ## Stacks -/

/-- How an expression that another one leads to is evaluated. -/
abbrev Evaluate := Stack → Expr → Option Json

section Stack

variable (cloud : Cloud) (evaluate : Evaluate) (st : Stack)

/-- The deployed resource of a logical id: the first that the cloud lists for the stack. -/
def deployed? (id : String) : Option (Option StackResource) := do
  let resources ← cloud.inventories.get? st.name
  return resources.find? fun r => r.logicalId == id

/-- The values of the parameters that a stack declares for a nested one. -/
def nestedParameters (id : String) : Option (Dict Json) :=
  match st.template.property? id "Parameters" with
  | none => some []
  | some parameters => do
    match ← evaluate st (Expr.ofJson parameters) with
    | .object values => some values
    | _ => none

/-- The nested stack declared under a logical id; there may be none, or none that is deployed. -/
def child? (id : String) : Option (Option Stack) :=
  match NestedStack.find? id st.nested with
  | some (.mk (some name) template inner) => do
    let parameters ← nestedParameters evaluate st id
    return some ⟨name, template, st.context.withParameters parameters, inner⟩
  | _ => some none

/-- The value of an output of a nested stack. -/
def nestedOutput? (id output : String) : Option (Option Json) := do
  match ← child? evaluate st id with
  | none => return none
  | some child => return some (← evaluate child (.getAttOf "Outputs" (.scalar (.string output))))

/-- The value of an attribute of a deployed resource, or of the resource itself; there may be
none. -/
def deployedAttribute? (id : String) (attr : Option String) (resource : StackResource) :
    Option (Option Json) :=
  let place : Place := ⟨st.context.partition, st.context.region, st.context.account⟩
  match resource.type == stackType, attr.bind (Text.dropStart? "Outputs."), resource.physicalId with
  | true, some output, _ => nestedOutput? evaluate st id output
  | _, _, none => some none
  | _, _, some physicalId => do
    let value? ← (Arn.attribute? place resource.type physicalId attr).toOption
    return value?.map .string

/-- The value of an attribute, or of a resource without one; there may be none. -/
def attribute? (id : String) (attr : Option String) : Option (Option Json) :=
  match id, attr with
  | "Outputs", some output =>
    match st.template.outputValue? output with
    | none => some none
    | some value => do return some (← evaluate st (Expr.ofJson value))
  | id, attr => do
    match ← deployed? cloud st id with
    | none => return none
    | some resource => deployedAttribute? evaluate st id attr resource

theorem deployedAttribute?_output (id output : String) {resource : StackResource}
    (htype : resource.type = stackType) :
    deployedAttribute? evaluate st id (some ("Outputs." ++ output)) resource
      = nestedOutput? evaluate st id output := by
  have houtput : (some ("Outputs." ++ output)).bind (Text.dropStart? "Outputs.") = some output :=
    Text.dropStart?_append _ _
  have hstack : (resource.type == stackType) = true := beq_iff_eq.mpr htype
  rw [deployedAttribute?, houtput, hstack]

theorem attribute?_outputs (output : String) :
    attribute? cloud evaluate st "Outputs" (some output) =
      (st.template.outputValue? output).elim (some none) fun value =>
        (evaluate st (Expr.ofJson value)).bind fun v => some (some v) := by
  rw [attribute?]
  cases st.template.outputValue? output <;> rfl

theorem attribute?_of_ne {id : String} {attr : Option String}
    (h : ∀ output, id = "Outputs" → attr = some output → False) :
    attribute? cloud evaluate st id attr = (deployed? cloud st id).bind fun resource =>
      resource.elim (some none) (deployedAttribute? evaluate st id attr) := by
  unfold attribute?
  split
  · exact (h _ rfl rfl).elim
  · refine congrArg (Option.bind _) (funext fun resource => ?_)
    cases resource <;> rfl

/-- The value of a name; there may be none. -/
def ref? (id : String) : Option (Option Json) :=
  if id = urlSuffixName then
    some (some (.string (cloud.urlSuffix.getD (Cloud.defaultUrlSuffix st.context.region))))
  else
    match (st.context.bindings st.name).get? id, st.template.parameterDefault? id with
    | some value, _ => some (some value)
    | none, some default => some (some default)
    | none, none => attribute? cloud evaluate st id none

/-- What names, attributes and exports are worth in a stack. -/
def meaning : Meaning where
  ref id := (ref? cloud evaluate st id).join
  getAtt id attr := (attribute? cloud evaluate st id attr).join
  importValue name := ((cloud.exportNamed? name).bind (·.value)).map .string

end Stack

/-- The value of an expression that may lead through `n` others, one within the other. -/
def evaluateAt (cloud : Cloud) : (n : Nat) → Evaluate
  | 0, _, _ => none
  | n + 1, st, e => value (meaning cloud (evaluateAt cloud n) st) e

/-- A value is worth another one in a stack. -/
def Gives (cloud : Cloud) (st : Stack) (v w : Json) : Prop :=
  ∃ n, evaluateAt cloud n st (Expr.ofJson v) = some w

end Plain

end StackExpr
