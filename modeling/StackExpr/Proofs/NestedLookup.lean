import StackExpr.Proofs.GivingUp
import StackExpr.Proofs.Imports
import StackExpr.Proofs.NestedOutput
/-!
# Lookups across the boundary of a stack

An output of a nested stack can be looked up on both sides: in the surrounding stack as the
attribute `Outputs.N` of the resource, and in the evaluator for the nested stack as the attribute
`N` of `Outputs`. **Both lookups answer the same** for an output that the nested stack declares
(`Run.lookups_agree`). Whatever the client is, the outer lookup fails where the inventory or the
evaluator for the nested stack cannot be had, and otherwise ends as the inner one can end that is
told the same. If exports have distinct names, what the two are told is the same, and so is the
value.

An output that is not declared is an error outside and no value inside, and under the id `Outputs`
the outer lookup is about the outputs of the surrounding stack itself (`lookups_not_agree`).
-/

namespace StackExpr

open Job

namespace Evaluator

variable {w : World} {n : Nat} {ev : Evaluator} {id output : String} {value : Json}

/-! ## Inside -/

/-- An output that is declared is the value that is declared for it. -/
theorem evaluateAt_outputs (n : Nat) (h : ev.template.outputValue? output = some value) :
    evaluateAt (n + 1) ev (.getAttOf "Outputs" (.scalar (.string output)))
      = evaluateAt n ev (Expr.ofJson value) := by
  show (attribute? (evaluateAt n) ev "Outputs" (some output)).bind _ = _
  rw [attribute?_outputs, h]
  show ((evaluateAt n ev (Expr.ofJson value)).bind _).bind _ = _
  rw [bind_bind]
  exact bind_pure _

/-- The lookup of an output evaluates the value that is declared for it. -/
theorem getAttTarget?_outputs (h : ev.template.outputValue? output = some value) :
    ev.getAttTarget? "Outputs" (some output)
      = (evaluateAt (ev.depth + 1) ev (Expr.ofJson value)).bind fun v => pure (some v) := by
  rw [getAttTarget?, attribute?_outputs, h]
  rfl

/-- As an evaluation can end with enough depth, it can end with more. -/
theorem canEnd_deeper (hn : Plain.enough ev.stack ≤ n) {e : Expr} {r : Except Failure Json}
    (h : (evaluateAt n ev e).CanEnd w r) : (evaluateAt (n + 1) ev e).CanEnd w r := by
  have hstill : Still w n ev e := fun hg => hg.of_enough hn (n + 1)
  intro Q hQ
  rcases h _ (hstill.follows Q hQ) with hr | ⟨hf, -⟩ | ⟨hf, -⟩
  · exact hr
  · exact hf.elim
  · exact hf.elim

/-- An evaluator for a nested stack works with a depth that is enough for it. -/
theorem BuiltFrom.enough_le {child : Evaluator} {d : NestedStack} (hc : child.BuiltFrom ev d)
    (hf : NestedStack.find? id ev.nested = some d) (hdeep : Plain.enough ev.stack ≤ ev.depth) :
    Plain.enough child.stack ≤ child.depth := by
  have hnested : Plain.Nested ev.stack child.stack :=
    ⟨id, child.stackName, hf.trans (congrArg some hc.declared)⟩
  rw [hc.depth]
  exact (Plain.enough_lt_of_nested hnested).le.trans ((Nat.le_add_left _ _).trans hdeep)

/-! ## Outside -/

/-- Whether a resource is deployed cannot be told where the inventory cannot be had. -/
theorem canEnd_inventory {e : Failure} (h : (ev.deployed? id).CanEnd w (.error e)) :
    ev.inventory.CanEnd w (.error e) := by
  rcases canEnd_bind.mp h with ⟨resources, -, hpure⟩ | ⟨e', he, hr⟩
  · exact nomatch hpure (fun r => ∃ resource?, r = .ok resource?) ⟨_, rfl⟩
  · rwa [Except.error.inj hr]

section Outside

variable {name : String} {template : Template} {inner : Dict NestedStack}
  {r : Except Failure (Option Json)} (hdeep : Plain.enough ev.stack ≤ ev.depth)
  (hf : NestedStack.find? id ev.nested = some (.mk (some name) template inner))
  (hvalue : template.outputValue? output = some value)
include hdeep hf hvalue

/-- An output of a nested stack cannot be had where an evaluator for the stack cannot be had, and
otherwise can end as the lookup in that evaluator. -/
theorem canEnd_nestedOutput?
    (h : (nestedOutput? (evaluateAt (ev.depth + 1)) ev id output).CanEnd w r) :
    (∃ e, (ev.child? id).CanEnd w (.error e) ∧ r = .error e) ∨
      ∃ child, (ev.child? id).CanEnd w (.ok (some child)) ∧
        (child.getAttTarget? "Outputs" (some output)).CanEnd w r := by
  rcases canEnd_bind.mp h with ⟨child?, hchild, h⟩ | ⟨e, he, rfl⟩
  · obtain ⟨hnone, hbuilt⟩ := hchild _ (ensures_builtFrom w _ ev id)
    rw [hf] at hnone hbuilt
    cases child? with
    | none => exact absurd (hnone.mp rfl) (by simp [NestedStack.physicalName])
    | some child =>
      obtain ⟨⟨d, hd, hc⟩, -⟩ := hbuilt child rfl
      obtain rfl := Option.some.inj hd
      have hdeclared : child.template.outputValue? output = some value := by
        cases hc.declared
        exact hvalue
      have henough : Plain.enough child.stack ≤ child.depth := hc.enough_le hf hdeep
      refine Or.inr ⟨child, hchild, ?_⟩
      -- Both lookups evaluate what is declared; the inner one may lead through one expression more.
      replace h : ((evaluateAt (ev.depth + 1) child
        (.getAttOf "Outputs" (.scalar (.string output)))).bind _).CanEnd w r := h
      rw [← hc.depth, evaluateAt_outputs _ hdeclared, canEnd_bind] at h
      rw [getAttTarget?_outputs hdeclared, canEnd_bind]
      rcases h with ⟨v, hv, hr⟩ | ⟨e, he, hr⟩
      · exact Or.inl ⟨v, canEnd_deeper henough hv, hr⟩
      · exact Or.inr ⟨e, canEnd_deeper henough he, hr⟩
  · exact Or.inl ⟨e, he, rfl⟩

/-- **The outer lookup of an output cannot be had where the inventory or an evaluator for the nested
stack cannot be had, and otherwise can end as the inner lookup.** -/
theorem canEnd_nestedLookup (hid : id ≠ "Outputs")
    (hdeployed : (ev.deployed? id).Ensures w fun r => ∀ resource?, r = .ok resource? →
      ∃ resource, resource? = some resource ∧ resource.type = stackType)
    (h : (ev.getAttTarget? id (some ("Outputs." ++ output))).CanEnd w r) :
    (∃ e, (ev.inventory.CanEnd w (.error e) ∨ (ev.child? id).CanEnd w (.error e)) ∧
      r = .error e) ∨
    ∃ child, (ev.child? id).CanEnd w (.ok (some child)) ∧
      (child.getAttTarget? "Outputs" (some output)).CanEnd w r := by
  rw [getAttTarget?, attribute?_of_ne fun _ h _ => hid h] at h
  rcases canEnd_bind.mp h with ⟨resource?, hresource, h⟩ | ⟨e, he, rfl⟩
  · obtain ⟨resource, rfl, htype⟩ := hresource _ hdeployed _ rfl
    rw [Option.elim_some, deployedAttribute?_output _ ev id output htype] at h
    rcases canEnd_nestedOutput? hdeep hf hvalue h with ⟨e, he, hr⟩ | hchild
    · exact Or.inl ⟨e, Or.inr he, hr⟩
    · exact Or.inr hchild
  · exact Or.inl ⟨e, Or.inl (canEnd_inventory he), rfl⟩

end Outside

/-- An output that is not declared is an error outside. -/
theorem ensures_undeclared {name : String} {template : Template} {inner : Dict NestedStack}
    (hf : NestedStack.find? id ev.nested = some (.mk (some name) template inner))
    (hvalue : template.outputValue? output = none) (hid : id ≠ "Outputs")
    (hdeployed : (ev.deployed? id).Ensures w fun r => ∀ resource?, r = .ok resource? →
      ∃ resource, resource? = some resource ∧ resource.type = stackType) :
    (ev.getAttTarget? id (some ("Outputs." ++ output))).Ensures w fun r => ∃ e, r = .error e := by
  rw [getAttTarget?, attribute?_of_ne fun _ h _ => hid h]
  refine ensures_bind (fun resource? hr => ?_) (fun e _ => ⟨e, rfl⟩) hdeployed
  obtain ⟨resource, rfl, htype⟩ := hr _ rfl
  rw [Option.elim_some, deployedAttribute?_output _ ev id output htype]
  refine ensures_bind (fun child? hc => ?_) (fun e _ => ⟨e, rfl⟩) (ensures_builtFrom w _ ev id)
  rw [hf] at hc
  cases child? with
  | none => exact absurd (hc.1.mp rfl) (by simp [NestedStack.physicalName])
  | some child =>
    obtain ⟨⟨d, hd, hbuilt⟩, -⟩ := hc.2 child rfl
    obtain rfl := Option.some.inj hd
    have hundeclared : child.template.outputValue? output = none := by
      cases hbuilt.declared
      exact hvalue
    have hfails : evaluateAt (ev.depth + 1) child (.getAttOf "Outputs" (.scalar (.string output)))
        = fail (.unresolvedAttribute "Outputs" output) := by
      show (attribute? (evaluateAt ev.depth) child "Outputs" (some output)).bind _ = _
      rw [attribute?_outputs, hundeclared]
      rfl
    show ((evaluateAt (ev.depth + 1) child _).bind _).Ensures w _
    rw [hfails]
    exact ⟨_, rfl⟩

end Evaluator

/-! ## Plain lookups -/

namespace Plain

variable {cloud : Cloud} {st child : Stack} {id output : String} {resource : StackResource}
  {value : Json} {n : Nat}

/-- The plain value of an output of a nested stack, looked up from outside. -/
theorem attribute?_nestedOutput (hid : id ≠ "Outputs")
    (hdeployed : deployed? cloud st id = some (some resource)) (htype : resource.type = stackType)
    (hchild : child? (evaluateAt cloud (n + 1)) st id = some (some child))
    (hvalue : child.template.outputValue? output = some value) :
    attribute? cloud (evaluateAt cloud (n + 1)) st id (some ("Outputs." ++ output))
      = (evaluateAt cloud n child (Expr.ofJson value)).map some := by
  rw [attribute?_of_ne _ _ _ fun _ h _ => hid h, hdeployed]
  show deployedAttribute? (evaluateAt cloud (n + 1)) st id _ resource = _
  rw [deployedAttribute?_output _ _ id output htype, nestedOutput?, hchild]
  show (evaluateAt cloud (n + 1) child (.getAttOf "Outputs" (.scalar (.string output)))).bind _ = _
  rw [evaluateAt_outputs, hvalue]
  exact Option.map_eq_bind.symm

end Plain

/-! ## Runs -/

section Runs

variable {client : Client} {log : List Event} {tasks : Multiset Task} {s : Session} {ev : Evaluator}

/-- A resource that the cloud lists as a nested stack is found as one by whoever asks for it. -/
theorem Run.ensures_deployed? (h : Run client log tasks s) (hm : Made tasks ev) {id : String}
    {resource : StackResource}
    (hdeployed : Plain.deployed? client.cloud ev.stack id = some (some resource))
    (htype : resource.type = stackType) {t : Task} (ht : t ∈ tasks) :
    (ev.deployed? id).Ensures (s.met t.log) fun r => ∀ resource?, r = .ok resource? →
      ∃ resource, resource? = some resource ∧ resource.type = stackType := by
  refine Evaluator.ensures_deployed? fun resources hr => ⟨resource, ?_, htype⟩
  exact h.find?_of_read hm hdeployed (h.mem_log ht _ hr)

/-- The evaluator that was made for a nested stack is one for the stack that plain evaluation
finds. -/
theorem Run.child?_of_made (h : Run client log tasks s) (hd : client.cloud.DistinctExports)
    (hm : Made tasks ev) {id : String} {child : Evaluator} {own : List Event}
    (hc : ⟨.child ev id, .done (.ok (some child)), own⟩ ∈ tasks)
    (hown : ∀ e ∈ own, e.injected client = false) :
    Plain.child? (Plain.evaluateAt client.cloud (ev.depth + 1)) ev.stack id
      = some (some child.stack) := by
  have hlog : ∀ e ∈ own, (client.cloud.world s).Admits e := fun e he =>
    h.admits hd (h.mem_log hc e he) (hown e he)
  obtain ⟨hchild, -⟩ := h.ensures (fun _ _ _ ho => ho) hc hlog (Evaluator.ensures_nestedEvaluator?
    (Evaluator.yields_evaluateAt (client.cloud.obeys_world s) _) (h.fit hm).opened id)
  exact hchild.symm

/-- A lookup that has ended has ended with the value of plain evaluation. -/
theorem Run.toOption_getAttTarget (h : Run client log tasks s) (hd : client.cloud.DistinctExports)
    (hm : Made tasks ev) {id : String} {attr : Option String} {r : Except Failure (Option Json)}
    {own : List Event} (ht : ⟨.getAttTarget ev id attr, .done r, own⟩ ∈ tasks)
    (hown : ∀ e ∈ own, e.injected client = false) :
    r.toOption = Plain.attribute? client.cloud (Plain.evaluateAt client.cloud (ev.depth + 1))
      ev.stack id attr := by
  have hlog : ∀ e ∈ own, (client.cloud.world s).Admits e := fun e he =>
    h.admits hd (h.mem_log ht e he) (hown e he)
  exact h.ensures (fun _ _ _ ho => ho) ht hlog (Evaluator.yields_attribute?
    (Evaluator.yields_evaluateAt (client.cloud.obeys_world s) _) (client.cloud.obeys_world s)
    (h.fit hm).opened id attr)

/-- **An output of a nested stack is answered the same on both sides.** The resource is deployed as
a nested stack, under another id than the one that stands for the outputs of a stack itself, and the
output is one that the nested stack declares.

Whatever the client is, the outer lookup has failed as reading the inventory or making the evaluator
for the nested stack can fail, or it has ended as the inner lookup can end in such an evaluator, for
the answers and failures that it has met with itself. And if exports have distinct names and no
request was made to fail, it has ended with the same value as the inner lookup in any evaluator that
was made for the nested stack, or both have failed; neither has ended without a value. -/
theorem Run.lookups_agree (h : Run client log tasks s) (hm : Made tasks ev) {id : String}
    (hid : id ≠ "Outputs") {resource : StackResource}
    (hdeployed : Plain.deployed? client.cloud ev.stack id = some (some resource))
    (htype : resource.type = stackType) {name : String} {template : Template}
    {inner : Dict NestedStack}
    (hf : NestedStack.find? id ev.nested = some (.mk (some name) template inner))
    {output : String} {value : Json} (hvalue : template.outputValue? output = some value)
    {r : Except Failure (Option Json)} {own : List Event}
    (ht : ⟨.getAttTarget ev id (some ("Outputs." ++ output)), .done r, own⟩ ∈ tasks) :
    ((∃ e, (ev.inventory.CanEnd (s.met own) (.error e) ∨
          (ev.child? id).CanEnd (s.met own) (.error e)) ∧ r = .error e) ∨
      ∃ child, (ev.child? id).CanEnd (s.met own) (.ok (some child)) ∧
        (child.getAttTarget? "Outputs" (some output)).CanEnd (s.met own) r) ∧
    (client.cloud.DistinctExports → ∀ child making r' own',
      ⟨.child ev id, .done (.ok (some child)), making⟩ ∈ tasks →
      ⟨.getAttTarget child "Outputs" (some output), .done r', own'⟩ ∈ tasks →
      (∀ e ∈ own ++ making ++ own', e.injected client = false) →
      (∀ v, r = .ok v ↔ r' = .ok v) ∧ r ≠ .ok none) := by
  have hdeep : Plain.enough ev.stack ≤ ev.depth := (h.fit hm).deep
  refine ⟨Evaluator.canEnd_nestedLookup hdeep hf hvalue hid
    (h.ensures_deployed? hm hdeployed htype ht) (h.canEnd ht), ?_⟩
  intro hd child making r' own' hc ht' hinjected
  simp only [List.mem_append, or_imp, forall_and] at hinjected
  obtain ⟨⟨hown, hmaking⟩, hown'⟩ := hinjected
  -- The evaluator was built from what is declared, so it declares the output and works deep enough.
  obtain ⟨⟨d, hd', hbuilt⟩, -⟩ := (h.canEnd hc _ (Evaluator.ensures_builtFrom _ _ _ _)).2 child rfl
  obtain rfl := Option.some.inj (hf.symm.trans hd')
  have hdeclared : child.stack.template.outputValue? output = some value := by
    cases hbuilt.declared
    exact hvalue
  have henough : Plain.enough child.stack ≤ child.depth := hbuilt.enough_le hf hdeep
  have houter : r.toOption = (Plain.evaluateAt client.cloud ev.depth child.stack
      (Expr.ofJson value)).map some := by
    rw [h.toOption_getAttTarget hd hm ht hown]
    exact Plain.attribute?_nestedOutput hid hdeployed htype (h.child?_of_made hd hm hc hmaking)
      hdeclared
  have hinner : r'.toOption = (Plain.evaluateAt client.cloud ev.depth child.stack
      (Expr.ofJson value)).map some := by
    have hdeeper := Plain.evaluateAt_succ client.cloud child.stack child.depth henough
    rw [h.toOption_getAttTarget hd (.nested hm hc) ht' hown', Plain.attribute?_outputs, hdeclared,
      Option.elim_some, ← hdeeper, hbuilt.depth]
    exact Option.map_eq_bind.symm
  have hiff : ∀ {r : Except Failure (Option Json)} {v}, r = .ok v ↔ r.toOption = some v := by
    intro r v
    cases r <;> simp [Except.toOption]
  refine ⟨fun v => by rw [hiff, hiff, houter, hinner], fun hnone => ?_⟩
  rw [hiff, houter] at hnone
  obtain ⟨v, -, hv⟩ := Option.map_eq_some_iff.mp hnone
  cases hv

end Runs

/-! ## A stack nested in the first one -/

/-- The evaluator for a stack nested in the first one under an id. -/
def Evaluator.own (id : String) (template : Template) : Evaluator :=
  ⟨"own", template, .first, [], 1, depthFor 0 {} [(id, .mk (some "own") template [])]⟩

/-- The first stack, with a stack nested in it under an id. -/
def Evaluator.around (id : String) (template : Template) : Evaluator :=
  .first [(id, .mk (some "own") template [])]

/-- The evaluator for the nested stack has been made. -/
def Task.own (id : String) (template : Template) : Task :=
  ⟨.child (.around id template) id, .done (.ok (some (.own id template))), []⟩

/-- A session may begin with the opening of the first stack and the making of the evaluator for the
stack nested in it. -/
theorem Run.own (client : Client) (id : String) (template : Template) : Run client []
    (Task.own id template ::ₘ Task.first [(id, .mk (some "own") template [])] ::ₘ 0)
    ⟨{}, [{ stack := "stack", region := "region" }, { stack := "own", region := "region" }]⟩ := by
  have hf : NestedStack.find? id [(id, .mk (some "own") template [])]
      = some (.mk (some "own") template []) := by simp [NestedStack.find?]
  have h := Run.begun (.child (.around id template) id)
    (Run.first client [(id, .mk (some "own") template [])])
  rw [show (Operation.child (.around id template) id).job = _ from
    @Evaluator.child?_of_found (.around id template) id "own" template [] hf rfl] at h
  exact (Run.moved (.opened _ _ _) h :)

theorem Evaluator.find?_around (id : String) (template : Template) :
    NestedStack.find? id (Evaluator.around id template).nested
      = some (.mk (some "own") template []) := by
  simp [around, first, NestedStack.find?]

/-- Once nothing is on its way, a lookup in the first stack comes to an end. -/
theorem Run.exists_outer {client : Client} {log : List Event} {tasks : Multiset Task} {s : Session}
    (h : Run client log tasks s) (hopen : ∀ t ∈ tasks, t.op.Open s) (hends : ∀ t ∈ tasks, t.Ended)
    (hs : s.caches ≠ []) (id : String) (template : Template) (attr : String) :
    ∃ log' r own s', Run client log'
      (⟨.getAttTarget (.around id template) id (some attr), .done r, own⟩ ::ₘ tasks) s' := by
  have hfirst : (Operation.getAttTarget (.around id template) id (some attr)).Open s :=
    fun id hid => Option.some.inj hid ▸ List.length_pos_iff.mpr hs
  exact (h.begun _).exists_end (Multiset.forall_mem_cons.mpr ⟨hfirst, hopen⟩) hends

/-- Where the inner lookup of an output needs nothing from outside, both lookups come to an end. -/
theorem Run.exists_lookups (client : Client) (id : String) (template : Template) (output : String)
    {r' : Except Failure (Option Json)}
    (hinner : (Evaluator.own id template).getAttTarget? "Outputs" (some output) = .done r') :
    ∃ log tasks s r own, Run client log tasks s ∧ Made tasks (.around id template) ∧
      Task.own id template ∈ tasks ∧
      ⟨.getAttTarget (.own id template) "Outputs" (some output), .done r', []⟩ ∈ tasks ∧
      ⟨.getAttTarget (.around id template) id (some ("Outputs." ++ output)), .done r, own⟩
        ∈ tasks := by
  let inner : Task := ⟨.getAttTarget (.own id template) "Outputs" (some output), .done r', []⟩
  let first : Task := .first [(id, .mk (some "own") template [])]
  have h : Run client [] (inner ::ₘ Task.own id template ::ₘ first ::ₘ 0) _ :=
    @Run.begun_as client _ _ _ inner.op _ hinner (Run.own client id template)
  obtain ⟨log, r, own, s, h⟩ := h.exists_outer (by simp [inner, first, Task.own, Task.first,
    Operation.Open, Operation.caches?, Evaluator.around, Evaluator.own, Evaluator.first])
    (by simp [inner, first, Task.own, Task.first, Task.Ended, result?]) (by simp) id template
    ("Outputs." ++ output)
  refine ⟨log, _, s, r, own, h, .first ?_, ?_, ?_, Multiset.mem_cons_self _ _⟩
  · exact Multiset.mem_cons_of_mem (by simp [first])
  · exact Multiset.mem_cons_of_mem (by simp)
  · exact Multiset.mem_cons_of_mem (Multiset.mem_cons_self _ _)

/-- An output of a nested stack, looked up on both sides. -/
theorem lookups_agree_of_oneOutput : ∃ log tasks s own own',
    Run ⟨.listing "X", .none⟩ log tasks s ∧
      ⟨.getAttTarget (.around "X" .oneOutput) "X" (some ("Outputs." ++ "N")),
        .done (.ok (some (.string "value"))), own⟩ ∈ tasks ∧
      ⟨.getAttTarget (.own "X" .oneOutput) "Outputs" (some "N"),
        .done (.ok (some (.string "value"))), own'⟩ ∈ tasks := by
  obtain ⟨log, tasks, s, r, own, h, hm, hc, hinner, houter⟩ :=
    Run.exists_lookups ⟨.listing "X", .none⟩ "X" .oneOutput "N" rfl
  have hd : (Cloud.listing "X").DistinctExports := .nil
  obtain ⟨-, hagree⟩ := h.lookups_agree hm (by decide) rfl rfl (Evaluator.find?_around "X" _) rfl
    houter
  obtain ⟨hiff, -⟩ := hagree hd _ _ _ _ hc hinner fun e _ => not_injected e
  obtain rfl := (hiff _).mpr rfl
  exact ⟨log, tasks, s, own, [], h, houter, hinner⟩

/-- The template of a stack whose output imports a value. -/
def Template.importing (name : String) : Template :=
  { outputs := [("N", ⟨Evaluator.importOf name⟩)] }

theorem Evaluator.getAttTarget?_importing (name : String) :
    (Evaluator.own "X" (.importing name)).getAttTarget? "Outputs" (some "N")
      = .ask 1 (.exportNamed name) .arriving fun found =>
          .done ((imported name found).map some) := by
  have hvalue : (Template.importing name).outputValue? "N" = some (importOf name) := rfl
  rw [getAttTarget?_outputs hvalue]
  show ((Evaluator.own "X" (.importing name)).evaluate (importOf name)).bind _ = _
  rw [evaluate_importOf]
  show Job.ask 1 (.exportNamed name) .arriving _ = _
  refine congrArg _ (funext fun found => ?_)
  show (done (imported name found)).bind _ = _
  cases imported name found <;> rfl

/-- A cloud that lists a nested stack, with two pages of exports and a name that is on both. -/
def Cloud.repeatedBelow : Cloud :=
  { inventories := (Cloud.listing "X").inventories, exportPages := Cloud.repeatedName.exportPages }

/-- The output of the nested stack has come to a value inside. -/
def Task.inner (value : String) (own : List Event) : Task :=
  ⟨.getAttTarget (.own "X" (.importing "A")) "Outputs" (some "N"),
    .done (.ok (some (.string value))), own⟩

/-- An import in the nested stack has come to a value. -/
def Task.importedBelow (name value : String) (own : List Event) : Task :=
  ⟨.evaluate (.own "X" (.importing "A")) (Evaluator.importOf name), .done (.ok (.string value)),
    own⟩

/-- Over this cloud, the output that imports `A` may be looked up inside, then `B` imported, then
the output looked up again. -/
theorem Run.exists_repeated : ∃ log s own other own', Run ⟨.repeatedBelow, .none⟩ log
    (Task.inner "2" own' ::ₘ Task.importedBelow "B" "b" other ::ₘ Task.inner "1" own ::ₘ
      Task.own "X" (.importing "A") ::ₘ
      Task.first [("X", .mk (some "own") (.importing "A") [])] ::ₘ 0) s ∧ 1 < s.caches.length := by
  let child : Evaluator := .own "X" (.importing "A")
  obtain ⟨log, own, other, own', s, ⟨c, hc, -⟩, -, h⟩ :=
    (Run.own ⟨.repeatedBelow, .none⟩ "X" (.importing "A")).exists_again (.fresh rfl _) rfl
      (.getAttTarget child "Outputs" (some "N")) (.evaluate child (Evaluator.importOf "B"))
      (Evaluator.getAttTarget?_importing "A") (child.evaluate_importOf "B")
  exact ⟨log, s, own, other, own', h, (List.getElem?_eq_some_iff.mp hc).1⟩

/-- The two sides do not always agree. An output that the nested stack does not declare is an error
outside and no value inside. Under the id `Outputs`, an output that the nested stack declares is not
found outside. And where a name is on two pages of exports, an import in the nested stack between
two lookups changes what is answered inside, so it is not always what is answered outside. -/
theorem lookups_not_agree :
    (∃ log tasks s own e, Run ⟨.listing "X", .none⟩ log tasks s ∧ Task.own "X" {} ∈ tasks ∧
      ⟨.getAttTarget (.around "X" {}) "X" (some ("Outputs." ++ "N")), .done (.error e), own⟩
        ∈ tasks ∧
      ⟨.getAttTarget (.own "X" {}) "Outputs" (some "N"), .done (.ok none), []⟩ ∈ tasks) ∧
    (∃ log tasks s own, Run ⟨.listing "Outputs", .none⟩ log tasks s ∧
      Task.own "Outputs" .oneOutput ∈ tasks ∧
      ⟨.getAttTarget (.around "Outputs" .oneOutput) "Outputs" (some ("Outputs." ++ "N")),
        .done (.ok none), own⟩ ∈ tasks ∧
      ⟨.getAttTarget (.own "Outputs" .oneOutput) "Outputs" (some "N"),
        .done (.ok (some (.string "value"))), []⟩ ∈ tasks) ∧
    ∃ log tasks s r own value innerOwn, Run ⟨.repeatedBelow, .none⟩ log tasks s ∧
      Task.own "X" (.importing "A") ∈ tasks ∧
      ⟨.getAttTarget (.around "X" (.importing "A")) "X" (some ("Outputs." ++ "N")), .done r, own⟩
        ∈ tasks ∧
      Task.inner value innerOwn ∈ tasks ∧ r ≠ .ok (some (.string value)) := by
  refine ⟨?_, ?_, ?_⟩
  · obtain ⟨log, tasks, s, r, own, h, hm, hc, hinner, houter⟩ :=
      Run.exists_lookups ⟨.listing "X", .none⟩ "X" {} "N" rfl
    have hdeployed : Plain.deployed? (.listing "X") (Evaluator.around "X" {}).stack "X"
        = some (some ⟨"X", some "own", stackType⟩) := rfl
    obtain ⟨e, rfl⟩ := h.canEnd houter _ (Evaluator.ensures_undeclared
      (Evaluator.find?_around "X" {}) rfl (by decide) (h.ensures_deployed? hm hdeployed rfl houter))
    exact ⟨log, tasks, s, own, e, h, hc, houter, hinner⟩
  · obtain ⟨log, tasks, s, r, own, h, hm, hc, hinner, houter⟩ :=
      Run.exists_lookups ⟨.listing "Outputs", .none⟩ "Outputs" .oneOutput "N" rfl
    obtain rfl := h.canEnd houter (fun r => r = .ok none) rfl
    exact ⟨log, tasks, s, own, h, hc, houter, hinner⟩
  · obtain ⟨log, s, own₁, other, own₂, h, hs⟩ := Run.exists_repeated
    obtain ⟨log, r, own, s, h⟩ := h.exists_outer (by
      simp [Task.inner, Task.importedBelow, Task.own, Task.first, Operation.Open,
        Operation.caches?, Evaluator.around, Evaluator.own, Evaluator.first, hs,
        Nat.zero_lt_of_lt hs])
      (by simp [Task.inner, Task.importedBelow, Task.own, Task.first, Task.Ended, result?])
      (List.length_pos_iff.mp (Nat.zero_lt_of_lt hs)) "X" (.importing "A") ("Outputs." ++ "N")
    by_cases hr : r = .ok (some (.string "1"))
    · refine ⟨log, _, s, r, own, "2", own₂, h, ?_, Multiset.mem_cons_self _ _, ?_, ?_⟩
      · simp
      · simp
      · simp [hr]
    · refine ⟨log, _, s, r, own, "1", own₁, h, ?_, Multiset.mem_cons_self _ _, ?_, hr⟩
      · simp
      · simp

end StackExpr
