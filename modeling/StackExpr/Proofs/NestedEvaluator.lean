import StackExpr.Proofs.Evaluators
import StackExpr.Proofs.Plain
/-!
# Which nested stack is meant

A logical id is unique in a template, but not in a tree of nested stacks. An evaluator asked for
the stack nested under an id goes through its whole tree, an entry before what is nested in it and
that before the next entry, and takes the first that has the id. **Both the evaluator for the nested
stack and the outputs taken from it are those of this entry** (`Run.nested_from_first`). It is the
entry of the evaluator's own stack unless an earlier sibling has the id somewhere below it
(`nested_not_from_own`).
-/

namespace StackExpr

open Job

/-! ## Outputs of a nested stack -/

namespace Evaluator

/-- The expression for an output of a nested stack. -/
def nestedOutput (id output : String) : Json :=
  .object [("Fn::GetAtt", .array [.string id, .string ("Outputs." ++ output)])]

theorem ofJson_nestedOutput (id output : String) :
    Expr.ofJson (nestedOutput id output)
      = .getAttOf id (.scalar (.string ("Outputs." ++ output))) := rfl

/-- A value is one that an evaluator for a stack built from what is declared can give for an
output. -/
def GivesOutput (w : World) (evaluate : Evaluate) (ev : Evaluator) (d : NestedStack)
    (output : String) (v : Json) : Prop :=
  ∃ child : Evaluator, child.BuiltFrom ev d ∧ w.Knows child ∧
    (evaluate child (.getAttOf "Outputs" (.scalar (.string output)))).CanEnd w (.ok v)

variable {w : World} {evaluate : Evaluate} {ev : Evaluator} {id output : String}

theorem ensures_nestedOutput? : (nestedOutput? evaluate ev id output).Ensures w fun r =>
    ∀ v, r = .ok (some v) → ∃ d, NestedStack.find? id ev.nested = some d ∧
      GivesOutput w evaluate ev d output v := by
  refine ensures_bind (fun child hc => ?_) (fun e _ v hv => nomatch hv)
    (ensures_builtFrom w evaluate ev id)
  cases child with
  | none => exact fun v hv => nomatch hv
  | some child =>
    obtain ⟨⟨d, hf, hchild⟩, hknows⟩ := hc.2 child rfl
    refine ensures_bind (fun v hv => ?_) (fun e _ v hv => nomatch hv) (ensures_canEnd _)
    rintro _ ⟨⟩
    exact ⟨d, hf, child, hchild, hknows, hv⟩

/-- A resource that every inventory lists as a nested stack is found as one. -/
theorem ensures_deployed? (hdeployed : ∀ resources : List StackResource,
      w.answers ev.caches .inventory resources →
      ∃ resource, (resources.find? fun r => r.logicalId == id) = some resource ∧
        resource.type = stackType) :
    (ev.deployed? id).Ensures w fun r => ∀ resource?, r = .ok resource? →
      ∃ resource, resource? = some resource ∧ resource.type = stackType := by
  refine ensures_bind (P := fun r => ∀ resources, r = .ok resources →
    w.answers ev.caches .inventory resources) (fun resources hr => ?_) (fun e _ v hv => nomatch hv)
    (ensures_query (fun resources hr => ?_) fun m _ v hv => nomatch hv)
  · rintro _ ⟨⟩
    exact hdeployed resources (hr resources rfl)
  · rintro _ ⟨⟩
    exact hr

/-- The attribute of a deployed nested stack that names an output is that output. -/
theorem ensures_attribute? (hid : id ≠ "Outputs")
    (hdeployed : (ev.deployed? id).Ensures w fun r => ∀ resource?, r = .ok resource? →
      ∃ resource, resource? = some resource ∧ resource.type = stackType) :
    (attribute? evaluate ev id (some ("Outputs." ++ output))).Ensures w fun r =>
      ∀ v, r = .ok (some v) → ∃ d, NestedStack.find? id ev.nested = some d ∧
        GivesOutput w evaluate ev d output v := by
  rw [attribute?_of_ne fun _ h _ => hid h]
  refine ensures_bind (fun resource? hr => ?_) (fun e _ v hv => nomatch hv) hdeployed
  obtain ⟨resource, rfl, htype⟩ := hr _ rfl
  rw [Option.elim_some, deployedAttribute?_output evaluate ev id output htype]
  exact ensures_nestedOutput?

/-- **What is taken from the output of a deployed nested stack is taken from what is found.** -/
theorem ensures_nestedOutput (n : Nat) (hid : id ≠ "Outputs")
    (hdeployed : (ev.deployed? id).Ensures w fun r => ∀ resource?, r = .ok resource? →
      ∃ resource, resource? = some resource ∧ resource.type = stackType) :
    (evaluateAt (n + 1) ev (Expr.ofJson (nestedOutput id output))).Ensures w fun r =>
      ∀ v, r = .ok v → ∃ d, NestedStack.find? id ev.nested = some d ∧
        GivesOutput w (evaluateAt n) ev d output v := by
  rw [ofJson_nestedOutput]
  -- The name of the attribute is a text as it stands, so only the attribute is evaluated.
  show ((attribute? (evaluateAt n) ev id (some ("Outputs." ++ output))).bind _).Ensures w _
  refine ensures_bind (fun value? hv => ?_) (fun e _ v hv => nomatch hv)
    (ensures_attribute? hid hdeployed)
  cases value? with
  | none => exact fun v hv => nomatch hv
  | some v =>
    rintro _ ⟨⟩
    exact hv v rfl

/-- What a nested stack leads to that has a name and needs no parameters. -/
theorem child?_of_found {name : String} {template : Template} {inner : Dict NestedStack}
    (hf : NestedStack.find? id ev.nested = some (.mk (some name) template inner))
    (hp : ev.template.property? id "Parameters" = none) :
    ev.child? id = Job.openStack name ev.context.region fun caches =>
      pure (some ⟨name, template, ev.context.withParameters [], inner, caches, ev.depth⟩) := by
  unfold child? nestedEvaluator? nestedParameters
  rw [hf, hp]
  rfl

end Evaluator

/-! ## Trees -/

namespace NestedStack

/-- A tree of two stacks, without an id that is used twice. -/
def plainTree : Dict NestedStack :=
  [("A", .mk (some "a") {} []), ("X", .mk (some "own") {} [])]

/-- A tree of two stacks, the first with a stack nested in it under the id of the second. -/
def shadowTree : Dict NestedStack :=
  [("A", .mk (some "a") {} [("X", .mk (some "other") {} [])]), ("X", .mk (some "own") {} [])]

/-- A tree of one stack, under the id that stands for the outputs of a stack itself. -/
def outputsTree : Dict NestedStack :=
  [("Outputs", .mk (some "own") { outputs := [("N", ⟨.string "value"⟩)] } [])]

end NestedStack

/-- In a stack with this tree, an evaluator for a nested stack may be asked for. -/
theorem Run.exists_child {nested inner : Dict NestedStack} {id name : String} {template : Template}
    (hf : NestedStack.find? id nested = some (.mk (some name) template inner)) :
    ∃ tasks s ev child, Run ⟨{}, .none⟩ [] tasks s ∧ Made tasks ev ∧ ev.nested = nested ∧
      ⟨.child ev id, .done (.ok (some child)), []⟩ ∈ tasks ∧ child.stackName = name := by
  let ev : Evaluator := .first nested
  let child : Evaluator := ⟨name, template, ev.context.withParameters [], inner, 1, ev.depth⟩
  let asked : Task := ⟨.child ev id, .done (.ok (some child)), []⟩
  have h := Run.begun (.child ev id) (Run.first ⟨{}, .none⟩ nested)
  have hjob : (Operation.child ev id).job = Job.openStack name "region" fun caches =>
      pure (some ⟨name, template, ev.context.withParameters [], inner, caches, ev.depth⟩) :=
    @Evaluator.child?_of_found ev id name template inner hf rfl
  rw [hjob] at h
  have h : Run ⟨{}, .none⟩ [] (asked ::ₘ Task.first nested ::ₘ 0) _ :=
    (Run.moved (.opened _ _ _) h :)
  exact ⟨_, _, ev, child, h, .first (Multiset.mem_cons_of_mem (Multiset.mem_cons_self _ _)), rfl,
    Multiset.mem_cons_self _ _, rfl⟩

/-! ## Runs -/

/-- The inventory that an evaluator of a run reads is the one that the cloud lists for its stack. -/
theorem Run.inventory_of_read {client : Client} {log : List Event} {tasks : Multiset Task}
    {s : Session} (h : Run client log tasks s) {ev : Evaluator} (hm : Made tasks ev)
    {resources : List StackResource} (hr : .read ev.caches .inventory resources ∈ log) :
    client.cloud.inventories.get? ev.stackName = some resources := by
  obtain ⟨c, hc, hreply⟩ := h.traffic.1.reply_of_read (by simp [Query.kind]) hr
  obtain ⟨c', hc', hstack, -⟩ := (h.fit hm).opened
  obtain rfl := Option.some.inj (hc.symm.trans hc')
  rwa [hstack] at hreply

/-- What an evaluator of a run finds under an id in the inventory is what the cloud lists. -/
theorem Run.find?_of_read {client : Client} {log : List Event} {tasks : Multiset Task}
    {s : Session} (h : Run client log tasks s) {ev : Evaluator} (hm : Made tasks ev) {id : String}
    {resource? : Option StackResource}
    (hdeployed : Plain.deployed? client.cloud ev.stack id = some resource?)
    {resources : List StackResource} (hr : .read ev.caches .inventory resources ∈ log) :
    (resources.find? fun r => r.logicalId == id) = resource? := by
  have hlisted : (client.cloud.inventories.get? ev.stackName).bind _ = some resource? := hdeployed
  rw [h.inventory_of_read hm hr] at hlisted
  exact Option.some.inj hlisted

/-- **The nested stack that is meant is the first in the tree that has the id.** It is the one that
the stack of the evaluator itself declares if nothing that stands before it in the tree has the id.
There is no evaluator for it just when it is not deployed; otherwise the evaluator is built from it,
and an output of it is taken from an evaluator that is built from it. -/
theorem Run.nested_from_first {client : Client} {log : List Event} {tasks : Multiset Task}
    {s : Session} (h : Run client log tasks s) {ev : Evaluator} (hm : Made tasks ev) {id : String}
    {before after : Dict NestedStack} {d : NestedStack}
    (hn : ev.nested = before ++ (id, d) :: after) :
    ∃ first, (∃ passed rest, NestedStack.preorder ev.nested = passed ++ (id, first) :: rest ∧
        ∀ e ∈ passed, e.1 ≠ id) ∧
      ((∀ e ∈ NestedStack.preorder before, e.1 ≠ id) → first = d) ∧
      (∀ r own, ⟨.child ev id, .done r, own⟩ ∈ tasks →
        (r = .ok none ↔ first.physicalName = none) ∧
          ∀ child, r = .ok (some child) → child.BuiltFrom ev first) ∧
      ∀ output v own, id ≠ "Outputs" →
        ⟨.evaluate ev (Evaluator.nestedOutput id output), .done (.ok v), own⟩ ∈ tasks →
        (∃ resource, Plain.deployed? client.cloud ev.stack id = some (some resource) ∧
          resource.type = stackType) →
        Evaluator.GivesOutput (s.met own) (Evaluator.evaluateAt ev.depth) ev first output v := by
  have hfound := NestedStack.find?_of_direct id before after d
  rw [← hn] at hfound
  refine ⟨_, NestedStack.find?_eq_some_iff.mp hfound, fun hb => ?_, fun r own ht => ?_,
    fun output v own hid ht hdeployed => ?_⟩
  · rw [NestedStack.find?_eq_none_iff.mpr hb]
    rfl
  · obtain ⟨hnone, hsome⟩ := h.canEnd ht _ (Evaluator.ensures_builtFrom _ _ _ _)
    rw [hfound] at hnone hsome
    refine ⟨hnone, fun child hc => ?_⟩
    obtain ⟨⟨d', hd, hchild⟩, -⟩ := hsome child hc
    rwa [← Option.some.inj hd] at hchild
  · obtain ⟨resource, hresource, htype⟩ := hdeployed
    have hread : ∀ resources : List StackResource,
        (s.met own).answers ev.caches .inventory resources →
        ∃ resource, (resources.find? fun r => r.logicalId == id) = some resource ∧
          resource.type = stackType := by
      intro resources hr
      have hlisted : (client.cloud.inventories.get? ev.stackName).bind _ = some (some resource) :=
        hresource
      rw [h.inventory_of_read hm (h.mem_log ht _ hr)] at hlisted
      exact ⟨resource, Option.some.inj hlisted, htype⟩
    obtain ⟨d', hd, hgives⟩ := h.canEnd ht _
      (Evaluator.ensures_nestedOutput ev.depth hid (Evaluator.ensures_deployed? hread)) v rfl
    rw [hfound] at hd
    rwa [← Option.some.inj hd] at hgives

/-- Where no id is used twice, the evaluator is one for the stack's own entry. -/
theorem nested_from_first_of_plainTree : ∃ tasks s ev child,
    Run ⟨{}, .none⟩ [] tasks s ∧ ev.nested = NestedStack.plainTree ∧
      ⟨.child ev "X", .done (.ok (some child)), []⟩ ∈ tasks ∧
      child.BuiltFrom ev (.mk (some "own") {} []) := by
  have hf : NestedStack.find? "X" NestedStack.plainTree = some (.mk (some "own") {} []) := by
    simp [NestedStack.plainTree, NestedStack.find?]
  obtain ⟨tasks, s, ev, child, h, hm, hn, ht, -⟩ := Run.exists_child hf
  have hsplit : ev.nested
      = [("A", .mk (some "a") {} [])] ++ ("X", .mk (some "own") {} []) :: [] := hn
  obtain ⟨first, -, hfirst, hchild, -⟩ := Run.nested_from_first h hm hsplit
  refine ⟨tasks, s, ev, child, h, hn, ht, ?_⟩
  rw [← hfirst (by simp [NestedStack.preorder])]
  exact (hchild _ _ ht).2 child rfl

/-- The stack's own entry is not always meant. Where an earlier sibling has the id below it, the
evaluator is one for another stack; and under the id `Outputs` no output of the nested stack is
found. -/
theorem nested_not_from_own :
    (∃ tasks s ev child, Run ⟨{}, .none⟩ [] tasks s ∧ Made tasks ev ∧
      ev.nested = NestedStack.shadowTree ∧
      ev.nested.get? "X" = some (.mk (some "own") {} []) ∧
      ⟨.child ev "X", .done (.ok (some child)), []⟩ ∈ tasks ∧ child.stackName = "other") ∧
    ∃ inventories tasks s ev, Run ⟨{ inventories }, .none⟩ [] tasks s ∧ Made tasks ev ∧
      ev.nested = NestedStack.outputsTree ∧
      Plain.deployed? { inventories } ev.stack "Outputs"
        = some (some ⟨"Outputs", some "own", stackType⟩) ∧
      ⟨.evaluate ev (Evaluator.nestedOutput "Outputs" "N"), .done (.error (.evaluation
        (.unresolvedAttribute "Outputs" "Outputs.N"))), []⟩ ∈ tasks := by
  constructor
  · have hf : NestedStack.find? "X" NestedStack.shadowTree = some (.mk (some "other") {} []) := by
      simp [NestedStack.shadowTree, NestedStack.find?]
    obtain ⟨tasks, s, ev, child, h, hm, hn, ht, hname⟩ := Run.exists_child hf
    exact ⟨tasks, s, ev, child, h, hm, hn, hn ▸ rfl, ht, hname⟩
  · let inventories : Dict (List StackResource) := [("stack", [⟨"Outputs", some "own", stackType⟩])]
    let ev : Evaluator := .first NestedStack.outputsTree
    have h := Run.begun (.evaluate ev (Evaluator.nestedOutput "Outputs" "N"))
      (Run.first ⟨{ inventories }, .none⟩ NestedStack.outputsTree)
    exact ⟨inventories, _, _, ev, h,
      .first (Multiset.mem_cons_of_mem (Multiset.mem_cons_self _ _)), rfl, rfl,
      Multiset.mem_cons_self _ _⟩

end StackExpr
