import StackExpr.Proofs.NestedStack
import StackExpr.Proofs.Run
/-!
# The evaluators of a run

An evaluator is made when a stack is opened, or by another evaluator for a stack nested in its own.
`Made` tells which evaluators the operations of a run have made. **They all are fit**
(`Run.fit`): their caches are those of their stack, and their depth is enough for its tree.

An evaluator for a nested stack is made from what `NestedStack.find?` finds; there is none just when
nothing is found or what is found is not deployed (`Evaluator.ensures_builtFrom`).
-/

namespace StackExpr

/-- The caches of the evaluator are those of its stack. -/
def World.Knows (w : World) (ev : Evaluator) : Prop :=
  w.opened ev.caches ev.stackName ev.context.region

namespace Evaluator

/-! ## Evaluators for nested stacks -/

/-- An evaluator is one for a stack that is declared in the stack of another evaluator. -/
structure BuiltFrom (child ev : Evaluator) (d : NestedStack) : Prop where
  declared : d = .mk (some child.stackName) child.template child.nested
  context : child.context = ev.context.withParameters child.context.parameters
  depth : child.depth = ev.depth

/-- **An evaluator for a nested stack is built from what is found**, and there is none just when
nothing is found that is deployed. -/
theorem ensures_builtFrom (w : World) (evaluate : Evaluate) (ev : Evaluator) (id : String) :
    (nestedEvaluator? evaluate ev id).Ensures w fun r =>
      (r = .ok none ↔ (NestedStack.find? id ev.nested).bind NestedStack.physicalName = none) ∧
        ∀ child, r = .ok (some child) →
          (∃ d, NestedStack.find? id ev.nested = some d ∧ child.BuiltFrom ev d) ∧
            w.Knows child := by
  unfold nestedEvaluator?
  split
  · next name template inner hf =>
    rw [hf]
    refine Job.ensures_bind (P := fun _ => True) (fun parameters _ => ?_) (fun e _ => ?_)
      ((Job.ensures_canEnd _).mono fun _ _ => trivial)
    · intro caches ho
      refine ⟨⟨fun h => ?_, fun h => ?_⟩, fun child hc => ?_⟩
      · cases h
      · cases h
      · obtain rfl := Option.some.inj (Except.ok.inj hc)
        exact ⟨⟨_, rfl, rfl, rfl, rfl⟩, ho⟩
    · refine ⟨⟨fun h => ?_, fun h => ?_⟩, fun child hc => ?_⟩
      · cases h
      · cases h
      · cases hc
  · next hne =>
    refine ⟨⟨fun _ => ?_, fun _ => rfl⟩, fun child hc => ?_⟩
    · rcases hf : NestedStack.find? id ev.nested with _ | ⟨_ | name, template, inner⟩
      · rfl
      · rfl
      · exact absurd hf (hne name template inner)
    · cases hc

/-! ## Attributes -/

/-- The value of an attribute of a deployed resource, or of the resource itself. -/
def deployedAttribute? (evaluate : Evaluate) (ev : Evaluator) (id : String) (attr : Option String)
    (resource : StackResource) : Job (Option Json) :=
  match resource.type == stackType, attr.bind (Text.dropStart? "Outputs."), resource.physicalId with
  | true, some output, _ => nestedOutput? evaluate ev id output
  | _, _, none => pure none
  | _, _, some physicalId => do
    let value? ← Job.ofExcept (Arn.attribute? ev.place resource.type physicalId attr)
    return value?.map .string

/-- An attribute of a nested stack that names an output is that output. -/
theorem deployedAttribute?_output (evaluate : Evaluate) (ev : Evaluator) (id output : String)
    {resource : StackResource} (htype : resource.type = stackType) :
    deployedAttribute? evaluate ev id (some ("Outputs." ++ output)) resource
      = nestedOutput? evaluate ev id output := by
  have houtput : (some ("Outputs." ++ output)).bind (Text.dropStart? "Outputs.") = some output :=
    Text.dropStart?_append _ _
  have hstack : (resource.type == stackType) = true := beq_iff_eq.mpr htype
  rw [deployedAttribute?, houtput, hstack]

theorem attribute?_outputs (evaluate : Evaluate) (ev : Evaluator) (output : String) :
    attribute? evaluate ev "Outputs" (some output) =
      (ev.template.outputValue? output).elim (pure none) fun value =>
        (evaluate ev (Expr.ofJson value)).bind fun v => pure (some v) := by
  rw [attribute?]
  cases ev.template.outputValue? output <;> rfl

theorem attribute?_of_ne {evaluate : Evaluate} {ev : Evaluator} {id : String}
    {attr : Option String} (h : ∀ output, id = "Outputs" → attr = some output → False) :
    attribute? evaluate ev id attr = (ev.deployed? id).bind fun resource =>
      resource.elim (pure none) (deployedAttribute? evaluate ev id attr) := by
  unfold attribute?
  split
  · exact (h _ rfl rfl).elim
  · refine congrArg (Job.bind _) (funext fun resource => ?_)
    cases resource <;> rfl

/-! ## Evaluators that are fit -/

/-- The caches are those of the stack, and the depth is enough for its tree. -/
structure Fit (ev : Evaluator) (s : Session) : Prop where
  opened : s.Opened ev.caches ev.stackName ev.context.region
  deep : ownSteps ev.template ev.nested + nestedSteps ev.nested ≤ ev.depth

theorem Fit.nested {ev child : Evaluator} {s : Session} {id : String} {d : NestedStack}
    (h : ev.Fit s) (hf : NestedStack.find? id ev.nested = some d) (hc : child.BuiltFrom ev d)
    (ho : s.Opened child.caches child.stackName child.context.region) : child.Fit s := by
  refine ⟨ho, ?_⟩
  rw [hc.declared] at hf
  have hlt := steps_lt_of_mem_preorder _ (NestedStack.mem_preorder_of_find? hf)
  have hdeep := h.deep
  rw [hc.depth]
  omega

theorem ensures_openStack {w : World} {pages : Nat} {stackName : String} {template : Template}
    {context : Context} {nested : Dict NestedStack} :
    (openStack pages stackName template context nested).Ensures w fun r =>
      ∃ ev, r = .ok ev ∧ w.Knows ev ∧
        ownSteps ev.template ev.nested + nestedSteps ev.nested ≤ ev.depth := by
  intro caches ho
  exact ⟨_, rfl, ho, Nat.le_mul_of_pos_right _ (Nat.succ_pos _)⟩

end Evaluator

/-- The evaluators that the operations among these have made. -/
inductive Made (tasks : Multiset Task) : Evaluator → Prop where
  | opened {pages : Nat} {stackName : String} {template : Template} {context : Context}
    {nested : Dict NestedStack} {ev : Evaluator} {own : List Event}
    (h : ⟨.openStack pages stackName template context nested, .done (.ok ev), own⟩ ∈ tasks) :
    Made tasks ev
  | nested {ev child : Evaluator} {id : String} {own : List Event} (hm : Made tasks ev)
    (h : ⟨.child ev id, .done (.ok (some child)), own⟩ ∈ tasks) : Made tasks child

theorem Made.mono {tasks tasks' : Multiset Task} {ev : Evaluator} (h : Made tasks ev)
    (hsub : ∀ t ∈ tasks, t ∈ tasks') : Made tasks' ev := by
  induction h with
  | opened ht => exact .opened (hsub _ ht)
  | nested _ ht ih => exact .nested ih (hsub _ ht)

/-- **The evaluators of a run are fit.** -/
theorem Run.fit {client : Client} {log : List Event} {tasks : Multiset Task} {s : Session}
    {ev : Evaluator} (h : Run client log tasks s) (hm : Made tasks ev) : ev.Fit s := by
  induction hm with
  | opened ht =>
    obtain ⟨ev, hev, ho, hdeep⟩ := h.canEnd ht _ Evaluator.ensures_openStack
    obtain rfl := Except.ok.inj hev
    exact ⟨ho, hdeep⟩
  | nested hm ht ih =>
    obtain ⟨-, hc⟩ := h.canEnd ht _ (Evaluator.ensures_builtFrom _ _ _ _)
    obtain ⟨⟨d, hf, hchild⟩, ho⟩ := hc _ rfl
    exact ih.nested hf hchild ho

/-! ## The first stack of a session -/

/-- Where the first stack is evaluated. -/
def Context.first : Context := ⟨"account", "region", "aws", []⟩

/-- The evaluator of the first stack, when it is opened with this tree. -/
def Evaluator.first (nested : Dict NestedStack) : Evaluator :=
  ⟨"stack", {}, .first, nested, 0, depthFor 0 {} nested⟩

/-- The opening of the first stack. -/
def Task.first (nested : Dict NestedStack) : Task :=
  ⟨.openStack 0 "stack" {} .first nested, .done (.ok (.first nested)), []⟩

/-- A session may begin with the opening of a stack. -/
theorem Run.first (client : Client) (nested : Dict NestedStack) :
    Run client [] (Task.first nested ::ₘ 0) ⟨{}, [{ stack := "stack", region := "region" }]⟩ :=
  (Run.moved (.opened _ _ _) (.begun (.openStack 0 "stack" {} .first nested) .start) :)

/-- Two operations want the URL suffix: one waits for the cloud, the other for the lock. -/
theorem Run.two_readers (client : Client) (op op' : Operation) {next : String → Job op.Answer}
    {next' : String → Job op'.Answer} (hjob : op.job = .ask 0 .urlSuffix .arriving next)
    (hjob' : op'.job = .ask 0 .urlSuffix .arriving next') :
    Run client [.asked 0 (.urlSuffix "region") 1]
      (⟨op, .ask 0 .urlSuffix (.fetching 0 1 none) next, [.asked 0 (.urlSuffix "region") 1]⟩ ::ₘ
        ⟨op', .ask 0 .urlSuffix (.waiting 1) next', []⟩ ::ₘ Task.first [] ::ₘ 0)
      ⟨{ urlSuffix := 1 }, [{ stack := "stack", region := "region",
                              urlSuffix := ⟨none, (Lock.enter {}).2.enter.2⟩ }]⟩ := by
  have h₁ : Run client [] (⟨op, .ask 0 .urlSuffix .arriving next, []⟩ ::ₘ Task.first [] ::ₘ 0) _ :=
    Run.begun_as hjob (Run.first client [])
  have h₂ : Run client _
      (⟨op, .ask 0 .urlSuffix (.fetching 0 1 none) next, _⟩ ::ₘ Task.first [] ::ₘ 0) _ :=
    .moved (@Job.Move.suspended client _ _ _ 0 .urlSuffix .arriving (.fetching 0 1 none) _ rfl) h₁
  rw [Multiset.cons_swap]
  exact .moved (@Job.Move.suspended client _ _ _ 0 .urlSuffix .arriving (.waiting 1) _ rfl)
    (Run.begun_as hjob' h₂)

theorem Made.first {nested : Dict NestedStack} {tasks : Multiset Task}
    (h : Task.first nested ∈ tasks) : Made tasks (.first nested) := .opened h

end StackExpr
