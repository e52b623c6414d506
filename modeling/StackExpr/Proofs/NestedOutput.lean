import StackExpr.Proofs.Completion
import StackExpr.Proofs.NestedEvaluator
import StackExpr.Proofs.Transparent
/-!
# Outputs of nested stacks

An output of a nested stack is evaluated in an evaluator of its own, which the evaluator of the
surrounding stack makes. **Its value is the one that the nested stack gives when it is opened on its
own**, in the same place and with the values of the parameters that the surrounding stack declares
for it (`Run.nested_output_iff`). So nothing else of the surrounding stack has an influence on it.

Only the id `Outputs` is an exception: in an expression it stands for the outputs of the stack
itself (`nested_output_not_of_outputs`).

Underneath stands that an evaluator of a run can evaluate any value to the end
(`Run.exists_evaluation`), and does so to what the value is worth (`Cloud.evaluates_iff`).
-/

namespace StackExpr

/-! ## Plain values of nested outputs -/

namespace Plain

theorem join_bind_some {α : Type} (o : Option α) : (o.bind fun a => some (some a)).join = o := by
  cases o <;> rfl

section NestedOutput

variable {cloud : Cloud} {st : Stack} {id name : String} {template : Template}
  {inner : Dict NestedStack} {resource : StackResource} {parameters : Dict Json} {n : Nat}

theorem evaluateAt_outputs (st : Stack) (output : String) :
    evaluateAt cloud (n + 1) st (.getAttOf "Outputs" (.scalar (.string output)))
      = (st.template.outputValue? output).bind fun value =>
          evaluateAt cloud n st (Expr.ofJson value) := by
  show (attribute? cloud (evaluateAt cloud n) st "Outputs" (some output)).join = _
  rw [attribute?_outputs]
  cases st.template.outputValue? output with
  | none => rfl
  | some value => exact join_bind_some _

/-- Where the parameters have values, an output of a nested stack is evaluated in that stack. -/
theorem evaluateAt_nestedOutput (hid : id ≠ "Outputs")
    (hdeployed : deployed? cloud st id = some (some resource)) (htype : resource.type = stackType)
    (hf : NestedStack.find? id st.nested = some (.mk (some name) template inner))
    (hp : nestedParameters (evaluateAt cloud (n + 1)) st id = some parameters) (output : String) :
    evaluateAt cloud (n + 2) st (Expr.ofJson (Evaluator.nestedOutput id output))
      = (template.outputValue? output).bind fun value => evaluateAt cloud n
          ⟨name, template, st.context.withParameters parameters, inner⟩ (Expr.ofJson value) := by
  have hchild : child? (evaluateAt cloud (n + 1)) st id
      = some (some ⟨name, template, st.context.withParameters parameters, inner⟩) := by
    unfold child?
    rw [hf]
    show (nestedParameters _ st id).bind _ = _
    rw [hp]
    rfl
  rw [Evaluator.ofJson_nestedOutput]
  show (attribute? cloud (evaluateAt cloud (n + 1)) st id (some ("Outputs." ++ output))).join = _
  rw [attribute?_of_ne _ _ _ fun _ h _ => hid h, hdeployed]
  show (deployedAttribute? (evaluateAt cloud (n + 1)) st id _ resource).join = _
  rw [deployedAttribute?_output _ _ id output htype, nestedOutput?, hchild]
  exact (join_bind_some _).trans (evaluateAt_outputs _ output)

/-- The parameters that a stack declares for a nested one have values: there are none, or they are
worth an object. -/
def GivesParameters (cloud : Cloud) (st : Stack) (id : String) (values : Dict Json) : Prop :=
  match st.template.property? id "Parameters" with
  | none => values = []
  | some parameters => Gives cloud st parameters (.object values)

theorem GivesParameters.exists_nestedParameters (h : GivesParameters cloud st id parameters) :
    ∃ m, ∀ n ≥ m, nestedParameters (evaluateAt cloud n) st id = some parameters := by
  unfold GivesParameters at h
  unfold nestedParameters
  cases hprop : st.template.property? id "Parameters" with
  | none =>
    rw [hprop] at h
    exact ⟨0, fun n _ => congrArg some (Eq.symm h)⟩
  | some value =>
    rw [hprop] at h
    obtain ⟨m, hm⟩ := h
    refine ⟨m, fun n hn => ?_⟩
    show (evaluateAt cloud n st (Expr.ofJson value)).bind _ = _
    rw [evaluateAt_mono_le cloud hn st _ _ hm]
    rfl

/-- **An output of a nested stack is worth what it is worth in that stack.** -/
theorem gives_nestedOutput (hid : id ≠ "Outputs")
    (hdeployed : deployed? cloud st id = some (some resource)) (htype : resource.type = stackType)
    (hf : NestedStack.find? id st.nested = some (.mk (some name) template inner))
    (hp : GivesParameters cloud st id parameters) (output : String) (v : Json) :
    Gives cloud st (Evaluator.nestedOutput id output) v ↔
      ∃ value, template.outputValue? output = some value ∧ Gives cloud
        ⟨name, template, st.context.withParameters parameters, inner⟩ value v := by
  obtain ⟨m, hm⟩ := hp.exists_nestedParameters
  have heq := fun n (hn : m ≤ n + 1) =>
    evaluateAt_nestedOutput hid hdeployed htype hf (hm _ hn) output
  constructor
  · rintro ⟨n, hn⟩
    have hv := evaluateAt_mono_le cloud (show n ≤ n + m + 2 by omega) st _ _ hn
    rw [heq (n + m) (by omega)] at hv
    obtain ⟨value, hvalue, hv⟩ := Option.bind_eq_some_iff.mp hv
    exact ⟨value, hvalue, n + m, hv⟩
  · rintro ⟨value, hvalue, n, hn⟩
    refine ⟨n + m + 2, ?_⟩
    rw [heq (n + m) (by omega), hvalue]
    exact evaluateAt_mono_le cloud (Nat.le_add_right n m) _ _ _ hn

end NestedOutput

end Plain

/-! ## Runs over a cloud whose requests do not fail -/

/-- Over a cloud whose requests do not fail, an evaluator of a run evaluates a value so. -/
def Cloud.Evaluates (cloud : Cloud) (ev : Evaluator) (v w : Json) : Prop :=
  ∃ log tasks s own, Run ⟨cloud, .none⟩ log tasks s ∧ Made tasks ev ∧
    ⟨.evaluate ev v, .done (.ok w), own⟩ ∈ tasks

/-- Over a cloud whose requests do not fail, a stack that is opened on its own evaluates a value
so. -/
def Cloud.EvaluatesAlone (cloud : Cloud) (pages : Nat) (st : Stack) (v w : Json) : Prop :=
  ∃ log tasks s ev opening own, Run ⟨cloud, .none⟩ log tasks s ∧
    ⟨.openStack pages st.name st.template st.context st.nested, .done (.ok ev), opening⟩ ∈ tasks ∧
    ⟨.evaluate ev v, .done (.ok w), own⟩ ∈ tasks

section Runs

variable {cloud : Cloud} {log : List Event} {tasks : Multiset Task} {s : Session} {ev : Evaluator}

theorem not_injected (e : Event) : e.injected ⟨cloud, .none⟩ = false := by
  cases e with
  | refused id r n message =>
    show Faults.none.hits r.kind n = false
    cases r.kind <;> rfl
  | _ => rfl

/-- An evaluation that has ended has ended with what the value is worth. -/
theorem Run.gives_of_done (h : Run ⟨cloud, .none⟩ log tasks s) (hd : cloud.DistinctExports)
    (hm : Made tasks ev) {v w : Json} {r : Except Failure Json} {own : List Event}
    (ht : ⟨.evaluate ev v, .done r, own⟩ ∈ tasks) :
    r = .ok w ↔ Plain.Gives cloud ev.stack v w := by
  have hfit := h.fit hm
  rw [Plain.gives_iff (Nat.le_succ_of_le hfit.deep),
    ← h.toOption_evaluate hd ht hfit.opened fun e _ => not_injected e]
  cases r with
  | ok v' => simp [Except.toOption]
  | error e => simp [Except.toOption]

theorem Cloud.Evaluates.gives (hd : cloud.DistinctExports) {v w : Json}
    (h : cloud.Evaluates ev v w) : Plain.Gives cloud ev.stack v w := by
  obtain ⟨log, tasks, s, own, h, hm, ht⟩ := h
  exact (h.gives_of_done hd hm ht).mp rfl

/-- Operations may be dropped together; what was opened stays open. -/
theorem Run.dropped_all {client : Client} {kept : Multiset Task} (others : Multiset Task)
    {s : Session} (h : Run client log (others + kept) s) : ∃ s', Run client log kept s' ∧
      ∀ id stack region, s.Opened id stack region → s'.Opened id stack region := by
  induction others using Multiset.induction generalizing s with
  | empty => exact ⟨s, by rwa [zero_add] at h, fun _ _ _ ho => ho⟩
  | cons t others ih =>
    rw [Multiset.cons_add] at h
    obtain ⟨s', h', ho⟩ := ih (.dropped h)
    exact ⟨s', h', fun id stack region hid => ho _ _ _ (Job.opened_cancel t.job hid)⟩

/-- The operation has ended, and the caches that it was put to are those of a stack. -/
def Task.Settled (s : Session) (t : Task) : Prop :=
  t.Ended ∧ ∀ id ∈ t.op.caches?, ∃ stack region, s.Opened id stack region

open Classical in
/-- The operations that have made an evaluator have ended. -/
theorem Run.made_filter {client : Client} (h : Run client log tasks s) (hm : Made tasks ev) :
    Made (tasks.filter (Task.Settled s)) ev := by
  induction hm with
  | opened ht => exact .opened (Multiset.mem_filter.mpr ⟨ht, rfl, fun _ hid => nomatch hid⟩)
  | nested hm ht ih =>
    refine .nested ih (Multiset.mem_filter.mpr ⟨ht, rfl, fun id hid => ?_⟩)
    exact Option.some.inj hid ▸ ⟨_, _, (h.fit hm).opened⟩

/-- A question may be put to any evaluator of a run, and is answered in the end. All operations that
have not ended are dropped first, so that none of them stands in the way. -/
theorem Run.exists_answer {client : Client} (h : Run client log tasks s) (hm : Made tasks ev)
    {op : Operation} (hop : op.caches? = some ev.caches) :
    ∃ log' tasks' s' own r, Run client log' tasks' s' ∧ Made tasks' ev ∧
      (∀ t ∈ tasks, t.Settled s → t ∈ tasks') ∧ ⟨op, .done r, own⟩ ∈ tasks' := by
  classical
  have hsplit := Multiset.filter_add_not (fun t => ¬ Task.Settled s t) tasks
  simp only [not_not] at hsplit
  have hmade := h.made_filter hm
  rw [← hsplit] at h
  obtain ⟨s', h', ho⟩ := Run.dropped_all _ h
  have hev : op.Open s' := fun id hid =>
    Option.some.inj (hop.symm.trans hid) ▸ (h'.fit hmade).opened.lt
  have hsettled : ∀ u ∈ tasks.filter (Task.Settled s), u.op.Open s' ∧ u.Ended := by
    intro u hu
    obtain ⟨-, hend, hcaches⟩ := Multiset.mem_filter.mp hu
    refine ⟨fun id hid => ?_, hend⟩
    obtain ⟨stack, region, hopened⟩ := hcaches id hid
    exact (ho id stack region hopened).lt
  obtain ⟨log', r, own, s'', h''⟩ := (h'.begun op).exists_end
    (Multiset.forall_mem_cons.mpr ⟨hev, fun u hu => (hsettled u hu).1⟩)
    fun u hu => (hsettled u hu).2
  exact ⟨log', _, s'', own, r, h'', hmade.mono fun t ht => Multiset.mem_cons_of_mem ht,
    fun t ht hst => Multiset.mem_cons_of_mem (Multiset.mem_filter.mpr ⟨ht, hst⟩),
    Multiset.mem_cons_self _ _⟩

/-- A value may be evaluated to the end in any evaluator of a run. -/
theorem Run.exists_evaluation {client : Client} (h : Run client log tasks s) (hm : Made tasks ev)
    (v : Json) : ∃ log' tasks' s' own r, Run client log' tasks' s' ∧ Made tasks' ev ∧
      (∀ t ∈ tasks, t.Settled s → t ∈ tasks') ∧ ⟨.evaluate ev v, .done r, own⟩ ∈ tasks' :=
  h.exists_answer hm rfl

/-- A session may begin with the opening of any stack. -/
theorem Run.opened (client : Client) (pages : Nat) (st : Stack) : ∃ ev own s,
    ev.stack = st ∧ Run client [] (⟨.openStack pages st.name st.template st.context st.nested,
      .done (.ok ev), own⟩ ::ₘ 0) s :=
  ⟨_, _, _, rfl, Run.moved (.opened _ _ _) (.begun (.openStack pages _ _ _ _) .start)⟩

/-- A stack may be opened, and a value evaluated in it to the end. -/
theorem Run.exists_evaluated (client : Client) (pages : Nat) (st : Stack) (v : Json) :
    ∃ log tasks s ev opening own r, Run client log tasks s ∧ ev.stack = st ∧
      ⟨.openStack pages st.name st.template st.context st.nested, .done (.ok ev), opening⟩ ∈ tasks ∧
      ⟨.evaluate ev v, .done r, own⟩ ∈ tasks := by
  obtain ⟨ev, opening, s, hstack, h⟩ := Run.opened client pages st
  obtain ⟨log, tasks, s', own, r, h', -, hkept, ht⟩ :=
    h.exists_evaluation (.opened (Multiset.mem_cons_self _ _)) v
  have hopened := hkept _ (Multiset.mem_cons_self _ _) ⟨rfl, fun _ hid => nomatch hid⟩
  exact ⟨log, tasks, s', ev, opening, own, r, h', hstack, hopened, ht⟩

/-- **An evaluator of a run evaluates a value to what it is worth in its stack.** -/
theorem Cloud.evaluates_iff (h : Run ⟨cloud, .none⟩ log tasks s) (hd : cloud.DistinctExports)
    (hm : Made tasks ev) {v w : Json} :
    cloud.Evaluates ev v w ↔ Plain.Gives cloud ev.stack v w := by
  refine ⟨fun hv => hv.gives hd, fun hgives => ?_⟩
  obtain ⟨log', tasks', s', own, r, h', hm', -, ht⟩ := h.exists_evaluation hm v
  obtain rfl := (h'.gives_of_done hd hm' ht).mpr hgives
  exact ⟨log', tasks', s', own, h', hm', ht⟩

/-- What is opened for a stack is an evaluator in this stack. -/
theorem Run.stack_of_opened {client : Client} (h : Run client log tasks s) {pages : Nat}
    {st : Stack} {opening : List Event}
    (ht : ⟨.openStack pages st.name st.template st.context st.nested, .done (.ok ev), opening⟩
      ∈ tasks) : ev.stack = st := by
  obtain ⟨ev', hev, hstack⟩ := h.canEnd ht (fun r => ∃ ev, r = .ok ev ∧ ev.stack = st)
    fun caches _ => ⟨_, rfl, rfl⟩
  rwa [← Except.ok.inj hev] at hstack

/-- **A stack that is opened on its own evaluates a value to what it is worth.** -/
theorem Cloud.evaluatesAlone_iff (hd : cloud.DistinctExports) (pages : Nat) (st : Stack)
    (v w : Json) : cloud.EvaluatesAlone pages st v w ↔ Plain.Gives cloud st v w := by
  constructor
  · rintro ⟨log, tasks, s, ev, opening, own, h, hopened, ht⟩
    rw [← h.stack_of_opened hopened]
    exact (h.gives_of_done hd (.opened hopened) ht).mp rfl
  · intro hgives
    obtain ⟨log, tasks, s, ev, opening, own, r, h, hstack, hopened, ht⟩ :=
      Run.exists_evaluated ⟨cloud, .none⟩ pages st v
    rw [← hstack] at hgives
    obtain rfl := (h.gives_of_done hd (.opened hopened) ht).mpr hgives
    exact ⟨log, tasks, s, ev, opening, own, h, hopened, ht⟩

/-- **An output of a nested stack has the value that the nested stack gives on its own**, opened in
the same place and with the values that the surrounding stack declares for its parameters: there are
none, or they are what the surrounding stack evaluates to an object. So whatever else is different
in the surrounding stack, or was done in it before, makes no difference. -/
theorem Run.nested_output_iff (h : Run ⟨cloud, .none⟩ log tasks s) (hd : cloud.DistinctExports)
    (hm : Made tasks ev) {id : String} (hid : id ≠ "Outputs") {resource : StackResource}
    (hdeployed : Plain.deployed? cloud ev.stack id = some (some resource))
    (htype : resource.type = stackType) {name : String} {template : Template}
    {inner : Dict NestedStack}
    (hf : NestedStack.find? id ev.nested = some (.mk (some name) template inner))
    {values : Dict Json}
    (hp : ev.template.property? id "Parameters" = none ∧ values = [] ∨
      ∃ parameters, ev.template.property? id "Parameters" = some parameters ∧
        cloud.Evaluates ev parameters (.object values))
    {output : String} {r : Except Failure Json} {own : List Event}
    (ht : ⟨.evaluate ev (Evaluator.nestedOutput id output), .done r, own⟩ ∈ tasks) (pages : Nat)
    (v : Json) :
    r = .ok v ↔ ∃ value, template.outputValue? output = some value ∧
      cloud.EvaluatesAlone pages ⟨name, template,
        ⟨ev.context.account, ev.context.region, ev.context.partition, values⟩, inner⟩ value v := by
  have hgives : Plain.GivesParameters cloud ev.stack id values := by
    show (match ev.template.property? id "Parameters" with | none => _ | some parameters => _)
    rcases hp with ⟨hp, hvalues⟩ | ⟨parameters, hp, hvalues⟩
    · rw [hp]
      exact hvalues
    · rw [hp]
      exact hvalues.gives hd
  rw [h.gives_of_done hd hm ht, Plain.gives_nestedOutput hid hdeployed htype hf hgives]
  simp only [Cloud.evaluatesAlone_iff hd]
  rfl

end Runs

/-- A cloud that lists a stack nested in the first one under an id. Its only page of exports is
empty. -/
def Cloud.listing (id : String) : Cloud :=
  { inventories := [("stack", [⟨id, some "own", stackType⟩])], exportPages := [[]] }

/-- The template of a stack with one output. -/
def Template.oneOutput : Template := { outputs := [("N", ⟨.string "value"⟩)] }

/-- An output whose value does not depend on anything. -/
theorem nested_output_iff_of_oneOutput : ∃ log tasks s ev own,
    Run ⟨.listing "X", .none⟩ log tasks s ∧ Made tasks ev ∧
      ⟨.evaluate ev (Evaluator.nestedOutput "X" "N"), .done (.ok (.string "value")), own⟩
        ∈ tasks := by
  have hd : (Cloud.listing "X").DistinctExports := .nil
  obtain ⟨log, tasks, s, ev, opening, own, r, h, hstack, hopened, ht⟩ :=
    Run.exists_evaluated ⟨.listing "X", .none⟩ 0
      ⟨"stack", {}, .first, [("X", .mk (some "own") .oneOutput [])]⟩
      (Evaluator.nestedOutput "X" "N")
  obtain ⟨_, _, _, _, _, _⟩ := ev
  cases hstack
  have hm := Made.opened hopened
  have hvalue : (Cloud.listing "X").EvaluatesAlone 0
      ⟨"own", .oneOutput, .first, []⟩ (.string "value") (.string "value") :=
    (Cloud.evaluatesAlone_iff hd 0 _ _ _).mpr ⟨1, rfl⟩
  have hf : NestedStack.find? "X" [("X", .mk (some "own") .oneOutput [])]
      = some (.mk (some "own") .oneOutput []) := by simp [NestedStack.find?]
  obtain rfl := (h.nested_output_iff hd hm (by decide) rfl rfl hf (Or.inl ⟨rfl, rfl⟩) ht 0
    (.string "value")).mpr ⟨.string "value", rfl, hvalue⟩
  exact ⟨log, tasks, s, _, own, h, hm, ht⟩

/-- Under the id `Outputs` an output of a nested stack is not found, although the nested stack gives
it on its own. -/
theorem nested_output_not_of_outputs : ∃ log tasks s ev own r,
    Run ⟨.listing "Outputs", .none⟩ log tasks s ∧ Made tasks ev ∧
      Plain.deployed? (.listing "Outputs") ev.stack "Outputs"
        = some (some ⟨"Outputs", some "own", stackType⟩) ∧
      NestedStack.find? "Outputs" ev.nested = some (.mk (some "own") .oneOutput []) ∧
      ev.template.property? "Outputs" "Parameters" = none ∧
      ⟨.evaluate ev (Evaluator.nestedOutput "Outputs" "N"), .done r, own⟩ ∈ tasks ∧
      r ≠ .ok (.string "value") ∧ Template.oneOutput.outputValue? "N" = some (.string "value") ∧
      (Cloud.listing "Outputs").EvaluatesAlone 0 ⟨"own", .oneOutput, ev.context, []⟩
        (.string "value") (.string "value") := by
  let nested : Dict NestedStack := [("Outputs", .mk (some "own") .oneOutput [])]
  let ev : Evaluator := .first nested
  have h := Run.begun (.evaluate ev (Evaluator.nestedOutput "Outputs" "N"))
    (Run.first ⟨.listing "Outputs", .none⟩ nested)
  have hd : (Cloud.listing "Outputs").DistinctExports := .nil
  have hf : NestedStack.find? "Outputs" nested = some (.mk (some "own") .oneOutput []) := by
    simp [nested, NestedStack.find?]
  have hvalue : (Cloud.listing "Outputs").EvaluatesAlone 0
      ⟨"own", .oneOutput, ev.context, []⟩ (.string "value") (.string "value") :=
    (Cloud.evaluatesAlone_iff hd 0 _ _ _).mpr ⟨1, rfl⟩
  exact ⟨_, _, _, ev, [], .error (.evaluation (.unresolvedAttribute "Outputs" "Outputs.N")), h,
    .first (Multiset.mem_cons_of_mem (Multiset.mem_cons_self _ _)), rfl, hf, rfl,
    Multiset.mem_cons_self _ _, by simp, rfl, hvalue⟩

end StackExpr
