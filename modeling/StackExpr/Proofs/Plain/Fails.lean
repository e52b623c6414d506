import StackExpr.Proofs.Plain.Depth
/-!
# Where failures come from

`Plain.Fails cloud st e f` says that an expression fails with `f` because one of its parts does, or
because it objects to what its parts are worth. It is the least relation with these rules:

* a short list fails as any of its elements, a long one as its first element without a value
* an object fails as its first field without a value
* a call that is not well-formed is an error of its own; any other fails as its argument, and if
  that has a value, for its own reason
* a substitution fails at its first placeholder without a text
* a selection looks at its index before it looks at its list
* an output fails as its value, an output of a nested stack as the parameters of that stack, and if
  these have values, as the output fails there

It does not say with which of several failures an expression ends, nor does it look at caches.
**What fails has no value** (`Plain.Fails.not_worth`).
-/

namespace StackExpr

/-! ## Parts of expressions -/

namespace Expr

/-- The argument that a call evaluates before anything else. -/
def argument? : Expr → Option Expr
  | getAttOf _ attr => some attr
  | join _ items => some items
  | split _ text => some text
  | select index _ => some index
  | subWith _ bindings => some bindings
  | importValue name => some name
  | _ => none

/-- A reference to a name or an attribute. -/
def ofTarget : Sub.Target → Expr
  | .ref id => ref id
  | .getAtt id attr => getAttOf id (scalar (.string attr))

/-- What a placeholder stands for: the value of a variable, or a reference. -/
def ofPlaceholder (vars : Dict Json) (name : String) : Expr :=
  (vars.get? name).elim (ofTarget (.ofPlaceholder name)) scalar

end Expr

/-- The output that an attribute of a resource names; there is none if the resource is no stack. -/
def StackResource.outputNamed? (resource : StackResource) (attr : Option String) : Option String :=
  if resource.type = stackType then attr.bind (Text.dropStart? "Outputs.") else none

namespace Plain

/-! ## Values -/

/-- An expression is worth a value in a stack. -/
def Worth (cloud : Cloud) (st : Stack) (e : Expr) (v : Json) : Prop :=
  ∃ n, evaluateAt cloud n st e = some v

/-- An expression is worth one value only. -/
theorem Worth.eq {cloud : Cloud} {st : Stack} {e : Expr} {v v' : Json} (h : Worth cloud st e v)
    (h' : Worth cloud st e v') : v = v' := by
  obtain ⟨n, hn⟩ := h
  obtain ⟨m, hm⟩ := h'
  have hv := evaluateAt_mono_le cloud (Nat.le_max_left n m) st e v hn
  have hv' := evaluateAt_mono_le cloud (Nat.le_max_right n m) st e v' hm
  exact Option.some.inj (hv.symm.trans hv')

theorem value_ofPlaceholder (m : Meaning) (vars : Dict Json) (name : String) :
    value m (.ofPlaceholder vars name)
      = (vars.get? name).elim (m.target (.ofPlaceholder name)) some := by
  unfold Expr.ofPlaceholder
  cases vars.get? name with
  | some v => rfl
  | none => cases Sub.Target.ofPlaceholder name <;> rfl

theorem fieldValues_eq_none {m : Meaning} {fields : List (String × Expr)} {k : String} {e : Expr}
    (he : (k, e) ∈ fields) (h : value m e = none) : fieldValues m fields = none := by
  induction fields with
  | nil => exact absurd he List.not_mem_nil
  | cons field fields ih =>
    obtain ⟨k', e'⟩ := field
    rcases List.mem_cons.mp he with he | he
    · cases he
      simp [fieldValues, h]
    · cases hv : value m e' <;> simp [fieldValues, hv, ih he]

/-- An attribute of a deployed resource is an output of a nested stack or follows from the physical
id. -/
theorem deployedAttribute?_eq (evaluate : Evaluate) (st : Stack) (id : String)
    (attr : Option String) (resource : StackResource) :
    deployedAttribute? evaluate st id attr resource = (resource.outputNamed? attr).elim
      (resource.physicalId.elim (some none) fun physicalId =>
        (Arn.attribute? ⟨st.context.partition, st.context.region, st.context.account⟩ resource.type
          physicalId attr).toOption.map (Option.map .string))
      (nestedOutput? evaluate st id) := by
  unfold deployedAttribute? StackResource.outputNamed?
  by_cases htype : resource.type = stackType
  · have hstack : (resource.type == stackType) = true := beq_iff_eq.mpr htype
    rw [hstack, if_pos htype]
    cases attr.bind (Text.dropStart? "Outputs.") with
    | some output => rfl
    | none => cases resource.physicalId <;> simp [Option.map_eq_bind]
  · have hstack : (resource.type == stackType) = false := beq_eq_false_iff_ne.mpr htype
    rw [hstack, if_neg htype]
    cases resource.physicalId <;> simp [Option.map_eq_bind]

/-! ## What an expression looks at -/

section Stack

variable (cloud : Cloud) (st : Stack)

/-- A call objects to the value of its argument. -/
inductive Objects : Expr → (v : Json) → EvalError → Prop where
  | getAttOf {id : String} {attr : Expr} {v : Json} {err : EvalError}
    (h : Function.getAtt.stringOf v = .error err) : Objects (.getAttOf id attr) v err
  | notList {delimiter : String} {items : Expr} {v : Json} {err : EvalError}
    (h : Function.join.listOf v = .error err) : Objects (.join delimiter items) v err
  | join {delimiter : String} {items : Expr} {v : Json} {vs : List Json} {err : EvalError}
    (hvs : Function.join.listOf v = .ok vs) (h : joined delimiter vs = .error err) :
    Objects (.join delimiter items) v err
  | split {delimiter : String} {text : Expr} {v : Json} {err : EvalError}
    (h : Function.split.stringOf v = .error err) : Objects (.split delimiter text) v err
  | select {index items : Expr} {v : Json} {err : EvalError}
    (h : Function.select.indexOf v = .error err) : Objects (.select index items) v err
  | subWith {template : String} {bindings : Expr} {v : Json} {err : EvalError}
    (h : Function.sub.variablesOf v = .error err) : Objects (.subWith template bindings) v err
  | importValue {name : Expr} {v : Json} {err : EvalError}
    (h : Function.importValue.stringOf v = .error err) : Objects (.importValue name) v err
  | notFound {arg : Expr} {v : Json} {name : String}
    (hv : Function.importValue.stringOf v = .ok name) (h : cloud.exportNamed? name = none) :
    Objects (.importValue arg) v (.exportNotFound name)
  | withoutValue {arg : Expr} {v : Json} {name : String} {e : Export}
    (hv : Function.importValue.stringOf v = .ok name) (h : cloud.exportNamed? name = some e)
    (he : e.value = none) : Objects (.importValue arg) v (.exportWithoutValue name)

/-- The expression stands for a template with these variables. -/
inductive Substitutes : Expr → (template : String) → (vars : Dict Json) → Prop where
  | sub (template : String) : Substitutes (.sub template) template []
  | subWith {template : String} {bindings : Expr} {v : Json} {vars : Dict Json}
    (hv : Worth cloud st bindings v) (hvars : Function.sub.variablesOf v = .ok vars) :
    Substitutes (.subWith template bindings) template vars

/-- A placeholder is worth a text. -/
def Fills (vars : Dict Json) (name : String) : Prop :=
  ∃ v text, Worth cloud st (.ofPlaceholder vars name) v ∧ substituted name v = .ok text

/-- The expression stands for an attribute, or for a resource without one; the error is the one it
ends with if there is none. -/
inductive LooksUp : Expr → (id : String) → (attr : Option String) → EvalError → Prop where
  | ref {id : String} (hsuffix : id ≠ urlSuffixName)
    (hbinding : (st.context.bindings st.name).get? id = none)
    (hdefault : st.template.parameterDefault? id = none) :
    LooksUp (.ref id) id none (.unresolvedRef id)
  | getAtt (id : String) : LooksUp (.getAtt id) id none (.unresolvedAttribute id "")
  | getAttOf {id : String} {arg : Expr} {v : Json} {attr : String} (hv : Worth cloud st arg v)
    (hattr : Function.getAtt.stringOf v = .ok attr) :
    LooksUp (.getAttOf id arg) id (some attr) (.unresolvedAttribute id attr)

/-- The attribute is not an output of the stack itself. -/
def OfResource (id : String) (attr : Option String) : Prop :=
  ∀ output, id = "Outputs" → attr = some output → False

/-- The attribute is one of a deployed resource. -/
structure Deployed (id : String) (attr : Option String) (resource : StackResource) : Prop where
  ofResource : OfResource id attr
  deployed : deployed? cloud st id = some (some resource)

/-- A stack is nested under an id, deployed, and given these parameters. -/
structure Declares (id : String) (parameters : Json) : Prop where
  nested : ∃ name template inner,
    NestedStack.find? id st.nested = some (.mk (some name) template inner)
  parameters : st.template.property? id "Parameters" = some parameters

end Stack

/-! ## Failures -/

/-- An expression fails as one of its parts, or objects to what they are worth. -/
inductive Fails (cloud : Cloud) : Stack → Expr → Failure → Prop where
  /-- A call that is not well-formed. -/
  | invalid (st : Stack) (err : EvalError) : Fails cloud st (.invalid err) (.evaluation err)
  /-- An element of a list: any in a short list, the first without a value in a long one. -/
  | element {st : Stack} {before after : List Expr} {e : Expr} {f : Failure}
    (h : Fails cloud st e f) (hfirst : (before ++ e :: after).length ≤ Job.shortLength ∨
      ∀ e' ∈ before, ∃ v, Worth cloud st e' v) : Fails cloud st (.list (before ++ e :: after)) f
  /-- The first field of an object that has no value. -/
  | field {st : Stack} {before after : List (String × Expr)} {k : String} {e : Expr} {f : Failure}
    (h : Fails cloud st e f) (hfirst : ∀ field ∈ before, ∃ v, Worth cloud st field.2 v) :
    Fails cloud st (.record (before ++ (k, e) :: after)) f
  /-- The argument of a call. -/
  | argument {st : Stack} {e arg : Expr} {f : Failure} (harg : e.argument? = some arg)
    (h : Fails cloud st arg f) : Fails cloud st e f
  /-- The call, for the sake of its argument. -/
  | objection {st : Stack} {e arg : Expr} {v : Json} {err : EvalError}
    (harg : e.argument? = some arg) (hv : Worth cloud st arg v) (h : Objects cloud e v err) :
    Fails cloud st e (.evaluation err)
  /-- The list of a selection whose index has a value. -/
  | selectFrom {st : Stack} {index items : Expr} {v : Json} {i : Nat} {f : Failure}
    (hv : Worth cloud st index v) (hi : Function.select.indexOf v = .ok i)
    (h : Fails cloud st items f) : Fails cloud st (.select index items) f
  /-- A selection from what is no list. -/
  | notList {st : Stack} {index items : Expr} {v w : Json} {i : Nat} {err : EvalError}
    (hv : Worth cloud st index v) (hi : Function.select.indexOf v = .ok i)
    (hw : Worth cloud st items w) (h : Function.select.listOf w = .error err) :
    Fails cloud st (.select index items) (.evaluation err)
  /-- A selection behind the end of its list. -/
  | outOfRange {st : Stack} {index items : Expr} {v w : Json} {i : Nat} {vs : List Json}
    {err : EvalError} (hv : Worth cloud st index v) (hi : Function.select.indexOf v = .ok i)
    (hw : Worth cloud st items w) (hvs : Function.select.listOf w = .ok vs)
    (h : selected i vs = .error err) : Fails cloud st (.select index items) (.evaluation err)
  /-- The first placeholder that has no text. -/
  | placeholder {st : Stack} {e : Expr} {template name : String} {vars : Dict Json}
    {before after : List Sub.Segment} {f : Failure} (he : Substitutes cloud st e template vars)
    (hparse : Sub.parse template = before ++ .placeholder name :: after)
    (hfirst : ∀ name', .placeholder name' ∈ before → Fills cloud st vars name')
    (h : Fails cloud st (.ofPlaceholder vars name) f) : Fails cloud st e f
  /-- The first placeholder that has no text, although it has a value. -/
  | notText {st : Stack} {e : Expr} {template name : String} {vars : Dict Json}
    {before after : List Sub.Segment} {v : Json} {err : EvalError}
    (he : Substitutes cloud st e template vars)
    (hparse : Sub.parse template = before ++ .placeholder name :: after)
    (hfirst : ∀ name', .placeholder name' ∈ before → Fills cloud st vars name')
    (hv : Worth cloud st (.ofPlaceholder vars name) v) (h : substituted name v = .error err) :
    Fails cloud st e (.evaluation err)
  /-- A name or an attribute that there is not. -/
  | unresolved {st : Stack} {e : Expr} {id : String} {attr : Option String} {err : EvalError}
    {n : Nat} (he : LooksUp cloud st e id attr err)
    (h : attribute? cloud (evaluateAt cloud n) st id attr = some none) :
    Fails cloud st e (.evaluation err)
  /-- The value of an output of the stack itself. -/
  | ownOutput {st : Stack} {e : Expr} {output : String} {value : Json} {err : EvalError}
    {f : Failure} (he : LooksUp cloud st e "Outputs" (some output) err)
    (hvalue : st.template.outputValue? output = some value)
    (h : Fails cloud st (Expr.ofJson value) f) : Fails cloud st e f
  /-- A resource of a stack that is not there. -/
  | unlisted {st : Stack} {e : Expr} {id : String} {attr : Option String} {err : EvalError}
    {message : String} (he : LooksUp cloud st e id attr err) (hattr : OfResource id attr)
    (h : cloud.answer (.stackResources st.name) = .error message) :
    Fails cloud st e (.client message)
  /-- The parameters of a nested stack. -/
  | parameters {st : Stack} {e : Expr} {id output : String} {attr : Option String}
    {err : EvalError} {resource : StackResource} {parameters : Json} {f : Failure}
    (he : LooksUp cloud st e id attr err) (hdeployed : Deployed cloud st id attr resource)
    (houtput : resource.outputNamed? attr = some output) (hdeclared : Declares st id parameters)
    (h : Fails cloud st (Expr.ofJson parameters) f) : Fails cloud st e f
  /-- Parameters of a nested stack that are no object. -/
  | notObject {st : Stack} {e : Expr} {id output : String} {attr : Option String} {err : EvalError}
    {resource : StackResource} {parameters v : Json} (he : LooksUp cloud st e id attr err)
    (hdeployed : Deployed cloud st id attr resource)
    (houtput : resource.outputNamed? attr = some output) (hdeclared : Declares st id parameters)
    (hv : Worth cloud st (Expr.ofJson parameters) v) (h : ∀ values, v ≠ .object values) :
    Fails cloud st e (.evaluation
      (.invalidArguments stackType ("Parameters of " ++ id ++ " must be an object")))
  /-- The output of a nested stack whose parameters have values. -/
  | nestedOutput {st child : Stack} {e : Expr} {id output : String} {attr : Option String}
    {err : EvalError} {resource : StackResource} {n : Nat} {f : Failure}
    (he : LooksUp cloud st e id attr err) (hdeployed : Deployed cloud st id attr resource)
    (houtput : resource.outputNamed? attr = some output)
    (hchild : child? (evaluateAt cloud n) st id = some (some child))
    (h : Fails cloud child (.getAttOf "Outputs" (.scalar (.string output))) f) : Fails cloud st e f
  /-- An attribute that does not follow from a physical id. -/
  | unsupported {st : Stack} {e : Expr} {id physicalId : String} {attr : Option String}
    {err err' : EvalError} {resource : StackResource} (he : LooksUp cloud st e id attr err)
    (hdeployed : Deployed cloud st id attr resource) (houtput : resource.outputNamed? attr = none)
    (hphysical : resource.physicalId = some physicalId)
    (h : Arn.attribute? ⟨st.context.partition, st.context.region, st.context.account⟩
      resource.type physicalId attr = .error err') : Fails cloud st e (.evaluation err')

/-! ## What fails has no value -/

theorem ok_of_toOption {ε α : Type} {r : Except ε α} {a : α} (h : r.toOption = some a) :
    r = .ok a := by
  cases r with
  | ok b => exact congrArg _ (Option.some.inj h)
  | error err => cases h

section Worth

variable {cloud : Cloud} {st : Stack} {e : Expr} {n : Nat} {w : Json}

/-- Where a call has a value, its argument has one to which the call does not object. -/
theorem exists_argument {arg : Expr} (harg : e.argument? = some arg)
    (h : evaluateAt cloud (n + 1) st e = some w) :
    ∃ v, evaluateAt cloud (n + 1) st arg = some v ∧ ∀ err, ¬ Objects cloud e v err := by
  have hbind : ∀ {α β : Type} {o : Option α} {f : α → Option β} {b : β}, o.bind f = some b →
      ∃ a, o = some a ∧ f a = some b := Option.bind_eq_some_iff.mp
  have hargs : ∀ {α : Type} {r : Except EvalError α} {a : α} {err : EvalError},
      r.toOption = some a → r ≠ .error err := by
    intro α r a err h herr
    rw [ok_of_toOption h] at herr
    cases herr
  cases e with
  | getAttOf id attr =>
    obtain rfl := Option.some.inj harg
    obtain ⟨v, hv, h⟩ := hbind h
    obtain ⟨name, hname, -⟩ := hbind h
    refine ⟨v, hv, fun err ho => ?_⟩
    cases ho with
    | getAttOf ho => exact hargs hname ho
  | join delimiter items =>
    obtain rfl := Option.some.inj harg
    obtain ⟨v, hv, h⟩ := hbind h
    obtain ⟨vs, hvs, h⟩ := hbind h
    refine ⟨v, hv, fun err ho => ?_⟩
    cases ho with
    | notList ho => exact hargs hvs ho
    | join hvs' ho =>
      obtain rfl := Except.ok.inj ((ok_of_toOption hvs).symm.trans hvs')
      exact hargs h ho
  | split delimiter text =>
    obtain rfl := Option.some.inj harg
    obtain ⟨v, hv, h⟩ := hbind h
    obtain ⟨s, hs, -⟩ := hbind h
    refine ⟨v, hv, fun err ho => ?_⟩
    cases ho with
    | split ho => exact hargs hs ho
  | select index items =>
    obtain rfl := Option.some.inj harg
    obtain ⟨v, hv, h⟩ := hbind h
    obtain ⟨i, hi, -⟩ := hbind h
    refine ⟨v, hv, fun err ho => ?_⟩
    cases ho with
    | select ho => exact hargs hi ho
  | subWith template bindings =>
    obtain rfl := Option.some.inj harg
    obtain ⟨v, hv, h⟩ := hbind h
    obtain ⟨vars, hvars, -⟩ := hbind h
    refine ⟨v, hv, fun err ho => ?_⟩
    cases ho with
    | subWith ho => exact hargs hvars ho
  | importValue arg =>
    obtain rfl := Option.some.inj harg
    obtain ⟨v, hv, h⟩ := hbind h
    obtain ⟨name, hname, h⟩ := hbind h
    have h : ((cloud.exportNamed? name).bind (·.value)).map Json.string = some w := h
    refine ⟨v, hv, fun err ho => ?_⟩
    cases ho with
    | importValue ho => exact hargs hname ho
    | notFound hname' ho =>
      obtain rfl := Except.ok.inj ((ok_of_toOption hname).symm.trans hname')
      simp [ho] at h
    | withoutValue hname' ho he =>
      obtain rfl := Except.ok.inj ((ok_of_toOption hname).symm.trans hname')
      simp [ho, he] at h
  | _ => cases harg

/-- Where a selection has a value, its index and its list have values that fit each other. -/
theorem exists_selection {index items : Expr}
    (h : evaluateAt cloud (n + 1) st (.select index items) = some w) :
    ∃ v i v' vs, Worth cloud st index v ∧ Function.select.indexOf v = .ok i ∧
      evaluateAt cloud (n + 1) st items = some v' ∧ Function.select.listOf v' = .ok vs ∧
      selected i vs = .ok w := by
  obtain ⟨v, hv, h⟩ := Option.bind_eq_some_iff.mp h
  obtain ⟨i, hi, h⟩ := Option.bind_eq_some_iff.mp h
  obtain ⟨v', hv', h⟩ := Option.bind_eq_some_iff.mp h
  obtain ⟨vs, hvs, h⟩ := Option.bind_eq_some_iff.mp h
  exact ⟨v, i, v', vs, ⟨n + 1, hv⟩, ok_of_toOption hi, hv', ok_of_toOption hvs, ok_of_toOption h⟩

/-- Where a substitution has a value, all its placeholders have texts. -/
theorem exists_text_of_substitute {m : Meaning} {vars : Dict Json} {name text : String} :
    (segments : List Sub.Segment) → substitute m vars segments = some text →
    .placeholder name ∈ segments →
    ∃ v s, value m (.ofPlaceholder vars name) = some v ∧ substituted name v = .ok s
  | [], _, hmem => absurd hmem List.not_mem_nil
  | .literal _ :: segments, h, hmem => by
    obtain ⟨rest, hrest, -⟩ := Option.bind_eq_some_iff.mp h
    rcases List.mem_cons.mp hmem with hmem | hmem
    · cases hmem
    · exact exists_text_of_substitute segments hrest hmem
  | .placeholder name' :: segments, h, hmem => by
    obtain ⟨v, hv, h⟩ := Option.bind_eq_some_iff.mp h
    obtain ⟨s, hs, h⟩ := Option.bind_eq_some_iff.mp h
    obtain ⟨rest, hrest, -⟩ := Option.bind_eq_some_iff.mp h
    rcases List.mem_cons.mp hmem with hmem | hmem
    · cases hmem
      exact ⟨v, s, (value_ofPlaceholder m vars name).trans hv, ok_of_toOption hs⟩
    · exact exists_text_of_substitute segments hrest hmem

theorem Substitutes.exists_text {template name : String} {vars : Dict Json}
    (he : Substitutes cloud st e template vars) (h : evaluateAt cloud (n + 1) st e = some w)
    (hmem : .placeholder name ∈ Sub.parse template) : ∃ v s,
      evaluateAt cloud (n + 1) st (.ofPlaceholder vars name) = some v ∧
        substituted name v = .ok s := by
  cases he with
  | sub template =>
    obtain ⟨text, htext, -⟩ := Option.bind_eq_some_iff.mp h
    exact exists_text_of_substitute _ htext hmem
  | subWith hv hvars =>
    obtain ⟨v, hv', h⟩ := Option.bind_eq_some_iff.mp h
    obtain ⟨vars', hvars', h⟩ := Option.bind_eq_some_iff.mp h
    obtain ⟨text, htext, -⟩ := Option.bind_eq_some_iff.mp h
    obtain rfl := hv.eq ⟨n + 1, hv'⟩
    obtain rfl := Except.ok.inj (hvars.symm.trans (ok_of_toOption hvars'))
    exact exists_text_of_substitute _ htext hmem

/-- Where an attribute is looked up with a value, there is one. -/
theorem LooksUp.attribute?_of_value {id : String} {attr : Option String} {err : EvalError}
    (he : LooksUp cloud st e id attr err) (h : evaluateAt cloud (n + 1) st e = some w) :
    attribute? cloud (evaluateAt cloud n) st id attr = some (some w) := by
  cases he with
  | ref hsuffix hbinding hdefault =>
    have h : (ref? cloud (evaluateAt cloud n) st id).join = some w := h
    rw [ref?, if_neg hsuffix, hbinding, hdefault] at h
    exact Option.join_eq_some_iff.mp h
  | getAtt id => exact Option.join_eq_some_iff.mp h
  | getAttOf hv hattr =>
    obtain ⟨v, hv', h⟩ := Option.bind_eq_some_iff.mp h
    obtain ⟨attr, hattr', h⟩ := Option.bind_eq_some_iff.mp h
    obtain rfl := hv.eq ⟨n + 1, hv'⟩
    obtain rfl := Except.ok.inj (hattr.symm.trans (ok_of_toOption hattr'))
    exact Option.join_eq_some_iff.mp h

/-- Where an attribute of a deployed resource has a value, so has what it follows from. -/
theorem LooksUp.deployedAttribute?_of_value {id : String} {attr : Option String} {err : EvalError}
    {resource : StackResource} (he : LooksUp cloud st e id attr err)
    (hdeployed : Deployed cloud st id attr resource)
    (h : evaluateAt cloud (n + 1) st e = some w) :
    deployedAttribute? (evaluateAt cloud n) st id attr resource = some (some w) := by
  have h := he.attribute?_of_value h
  rwa [attribute?_of_ne _ _ _ hdeployed.ofResource, hdeployed.deployed] at h

/-- Where an output of a nested stack has a value, it has it in that stack. -/
theorem LooksUp.exists_child {id output : String} {attr : Option String} {err : EvalError}
    {resource : StackResource} (he : LooksUp cloud st e id attr err)
    (hdeployed : Deployed cloud st id attr resource)
    (houtput : resource.outputNamed? attr = some output)
    (h : evaluateAt cloud (n + 1) st e = some w) :
    ∃ child, child? (evaluateAt cloud n) st id = some (some child) ∧
      evaluateAt cloud n child (.getAttOf "Outputs" (.scalar (.string output))) = some w := by
  have h := he.deployedAttribute?_of_value hdeployed h
  rw [deployedAttribute?_eq, houtput] at h
  obtain ⟨child, hchild, h⟩ := Option.bind_eq_some_iff.mp h
  cases child with
  | none => cases h
  | some child =>
    obtain ⟨v, hv, h⟩ := Option.bind_eq_some_iff.mp h
    obtain rfl := Option.some.inj (Option.some.inj h)
    exact ⟨child, hchild, hv⟩

/-- Where a nested stack is found, its parameters are an object. -/
theorem Declares.exists_values {id : String} {parameters : Json} {child : Stack}
    (hd : Declares st id parameters)
    (h : child? (evaluateAt cloud n) st id = some (some child)) :
    ∃ values, evaluateAt cloud n st (Expr.ofJson parameters) = some (.object values) := by
  obtain ⟨name, template, inner, hf⟩ := hd.nested
  unfold child? nestedParameters at h
  rw [hf, hd.parameters] at h
  obtain ⟨values, hvalues, -⟩ := Option.bind_eq_some_iff.mp h
  obtain ⟨v, hv, h⟩ := Option.bind_eq_some_iff.mp hvalues
  cases v with
  | object values => exact ⟨values, hv⟩
  | _ => cases h

/-- Where a list has a value, all its elements have. -/
theorem exists_of_mem_list {elements : List Expr} {e : Expr}
    (h : evaluateAt cloud (n + 1) st (.list elements) = some w) (he : e ∈ elements) :
    ∃ v, evaluateAt cloud (n + 1) st e = some v := by
  obtain ⟨vs, hvs, -⟩ := Option.bind_eq_some_iff.mp h
  refine Option.ne_none_iff_exists'.mp fun hnone => ?_
  rw [values_eq_none he hnone] at hvs
  cases hvs

/-- Where an object has a value, all its fields have. -/
theorem exists_of_mem_record {fields : List (String × Expr)} {k : String} {e : Expr}
    (h : evaluateAt cloud (n + 1) st (.record fields) = some w) (he : (k, e) ∈ fields) :
    ∃ v, evaluateAt cloud (n + 1) st e = some v := by
  obtain ⟨vs, hvs, -⟩ := Option.bind_eq_some_iff.mp h
  refine Option.ne_none_iff_exists'.mp fun hnone => ?_
  rw [fieldValues_eq_none he hnone] at hvs
  cases hvs

/-- **What fails has no value.** -/
theorem Fails.not_worth {f : Failure} (h : Fails cloud st e f) : ¬ Worth cloud st e w := by
  rintro ⟨n, hn⟩
  have hdeeper {n st e w} (h : evaluateAt cloud n st e = some w) :
      evaluateAt cloud (n + 1) st e = some w := evaluateAt_mono cloud n st e w h
  replace hn := hdeeper hn
  -- A part that fails has no value within any depth, in particular not within this one.
  induction h generalizing n w with
  | invalid => cases hn
  | element _ _ ih =>
    obtain ⟨v, hv⟩ := exists_of_mem_list hn (List.mem_append_right _ List.mem_cons_self)
    exact ih n hv
  | field _ _ ih =>
    obtain ⟨v, hv⟩ := exists_of_mem_record hn (List.mem_append_right _ List.mem_cons_self)
    exact ih n hv
  | argument harg _ ih =>
    obtain ⟨v, hv, -⟩ := exists_argument harg hn
    exact ih n hv
  | objection harg hv ho =>
    obtain ⟨v, hv', hno⟩ := exists_argument harg hn
    obtain rfl := hv.eq ⟨_, hv'⟩
    exact hno _ ho
  | selectFrom _ _ _ ih =>
    obtain ⟨_, _, v, vs, -, -, hv, -⟩ := exists_selection hn
    exact ih n hv
  | notList _ _ hw herr =>
    obtain ⟨_, _, v, vs, -, -, hv, hvs, -⟩ := exists_selection hn
    obtain rfl := hw.eq ⟨_, hv⟩
    cases hvs.symm.trans herr
  | outOfRange hv hi hw hvs herr =>
    obtain ⟨v, i, v', vs', hv', hi', hw', hvs', hsel⟩ := exists_selection hn
    obtain rfl := hv.eq hv'
    obtain rfl := hw.eq ⟨_, hw'⟩
    obtain rfl := Except.ok.inj (hi.symm.trans hi')
    obtain rfl := Except.ok.inj (hvs.symm.trans hvs')
    cases hsel.symm.trans herr
  | placeholder he hparse _ _ ih =>
    obtain ⟨v, _, hv, -⟩ := he.exists_text hn
      (hparse ▸ List.mem_append_right _ List.mem_cons_self)
    exact ih n hv
  | notText he hparse _ hv herr =>
    obtain ⟨v, _, hv', htext⟩ := he.exists_text hn
      (hparse ▸ List.mem_append_right _ List.mem_cons_self)
    obtain rfl := hv.eq ⟨_, hv'⟩
    cases htext.symm.trans herr
  | @unresolved st e id attr err m he hnone =>
    have h := attribute?_mono (evaluateAt_mono_le cloud (Nat.le_max_left n m)) st id attr _
      (he.attribute?_of_value hn)
    have h' := attribute?_mono (evaluateAt_mono_le cloud (Nat.le_max_right n m)) st id attr _ hnone
    cases h.symm.trans h'
  | ownOutput he hvalue _ ih =>
    have h := he.attribute?_of_value hn
    rw [attribute?_outputs, hvalue] at h
    obtain ⟨v, hv, -⟩ := Option.bind_eq_some_iff.mp h
    exact ih n (hdeeper hv)
  | @unlisted st e id attr err message he hattr herr =>
    have h := he.attribute?_of_value hn
    rw [attribute?_of_ne _ _ _ hattr] at h
    obtain ⟨resource, hresource, -⟩ := Option.bind_eq_some_iff.mp h
    obtain ⟨resources, hresources, -⟩ := Option.bind_eq_some_iff.mp hresource
    rw [Cloud.answer, hresources] at herr
    cases herr
  | parameters he hdeployed houtput hdeclared _ ih =>
    obtain ⟨child, hchild, -⟩ := he.exists_child hdeployed houtput hn
    obtain ⟨values, hvalues⟩ := hdeclared.exists_values hchild
    exact ih n (hdeeper hvalues)
  | notObject he hdeployed houtput hdeclared hv hne =>
    obtain ⟨child, hchild, -⟩ := he.exists_child hdeployed houtput hn
    obtain ⟨values, hvalues⟩ := hdeclared.exists_values hchild
    exact hne values (hv.eq ⟨_, hvalues⟩)
  | @nestedOutput st child e id output attr err resource m f he hdeployed houtput hchild _ ih =>
    obtain ⟨child', hchild', hv⟩ := he.exists_child hdeployed houtput hn
    have h := child?_mono (evaluateAt_mono_le cloud (Nat.le_max_left n m) st) id _ hchild'
    have h' := child?_mono (evaluateAt_mono_le cloud (Nat.le_max_right n m) st) id _ hchild
    obtain rfl := Option.some.inj (Option.some.inj (h.symm.trans h'))
    exact ih n (hdeeper hv)
  | unsupported he hdeployed houtput hphysical herr =>
    have h := he.deployedAttribute?_of_value hdeployed hn
    rw [deployedAttribute?_eq, houtput, hphysical, Option.elim_none, Option.elim_some, herr] at h
    cases h

end Worth

end Plain

end StackExpr
