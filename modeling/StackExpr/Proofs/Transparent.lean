import StackExpr.Proofs.Evaluators
import StackExpr.Proofs.Job.Yields
import StackExpr.Proofs.Plain.Depth
/-!
# Caches and schedules make no difference

In the world of a cloud (`Cloud.world`) readers are told what the cloud would reply, and only
requests for the resources of unknown stacks fail. There, **the evaluation of an expression yields
its plain value** (`Evaluator.yields_evaluateAt`): by induction on the depth, what an expression
leads to yields its plain value, so names, attributes and exports do, so the expression does.

Runs live in that world as long as no request is made to fail. Together:
**an evaluation that has ended has ended with the plain value, whatever was done before and whatever
was done meanwhile** (`Run.evaluate_iff`).
-/

namespace StackExpr

open Job

/-! ## Evaluators -/

/-- Readers are told what the cloud would reply, and refused only what it refuses. -/
def World.Obeys (w : World) (cloud : Cloud) : Prop :=
  ∀ id stack region, w.opened id stack region → ∀ q,
    (∀ a, w.answers id q a → cloud.reply stack region q = some a) ∧
      ∀ message, w.refuses id q.kind message → cloud.reply stack region q = none

namespace Evaluator

variable {w : World} {cloud : Cloud} {evaluate : Evaluate} {plain : Plain.Evaluate} {ev : Evaluator}

theorem yields_query (hw : w.Obeys cloud) (hev : w.Knows ev) (q : Query) :
    (Job.query ev.caches q).Yields w (cloud.reply ev.stackName ev.context.region q) :=
  ensures_query (fun a ha => ((hw _ _ _ hev q).1 a ha).symm)
    fun message hm => ((hw _ _ _ hev q).2 message hm).symm

theorem yields_deployed? (hw : w.Obeys cloud) (hev : w.Knows ev) (id : String) :
    (ev.deployed? id).Yields w (Plain.deployed? cloud ev.stack id) :=
  yields_bind (yields_query hw hev .inventory) fun _ _ => yields_pure _

section Stack

variable (he : ∀ ev, w.Knows ev → ∀ e, (evaluate ev e).Yields w (plain ev.stack e))
include he

theorem yields_nestedParameters (hev : w.Knows ev) (id : String) :
    (nestedParameters evaluate ev id).Yields w (Plain.nestedParameters plain ev.stack id) := by
  have htemplate : ev.stack.template = ev.template := rfl
  unfold nestedParameters Plain.nestedParameters
  rw [htemplate]
  cases ev.template.property? id "Parameters" with
  | none => exact yields_pure _
  | some parameters =>
    refine yields_bind (he ev hev _) fun v _ => ?_
    cases v with
    | object values => exact yields_pure _
    | _ => exact yields_fail _

/-- The evaluator for a nested stack is one of the stack that plain evaluation finds, and has caches
of its own. -/
theorem ensures_nestedEvaluator? (hev : w.Knows ev) (id : String) :
    (nestedEvaluator? evaluate ev id).Ensures w fun r =>
      r.toOption.map (Option.map Evaluator.stack) = Plain.child? plain ev.stack id ∧
        ∀ child, r = .ok (some child) → w.Knows child := by
  have hnested : ev.stack.nested = ev.nested := rfl
  unfold nestedEvaluator? Plain.child?
  rw [hnested]
  rcases NestedStack.find? id ev.nested with _ | ⟨_ | name, template, inner⟩
  · exact ⟨rfl, fun child hc => by cases hc⟩
  · exact ⟨rfl, fun child hc => by cases hc⟩
  · refine ensures_bind (fun parameters hp => ?_) (fun e hp => ?_)
      (yields_nestedParameters he hev id)
    · intro caches ho
      have hp : Plain.nestedParameters plain ev.stack id = some parameters := hp.symm
      rw [hp]
      refine ⟨rfl, fun child hc => ?_⟩
      obtain rfl := Option.some.inj (Except.ok.inj hc)
      exact ho
    · have hp : Plain.nestedParameters plain ev.stack id = none := hp.symm
      rw [hp]
      exact ⟨rfl, fun child hc => by cases hc⟩

theorem yields_nestedOutput? (hev : w.Knows ev) (id output : String) :
    (nestedOutput? evaluate ev id output).Yields w
      (Plain.nestedOutput? plain ev.stack id output) := by
  refine ensures_bind (fun child hc => ?_) (fun e hc => ?_) (ensures_nestedEvaluator? he hev id)
  · obtain ⟨hchild, hknows⟩ := hc
    have hchild : Plain.child? plain ev.stack id = some (child.map Evaluator.stack) := hchild.symm
    unfold Plain.nestedOutput?
    rw [hchild]
    cases child with
    | none => exact yields_pure _
    | some child =>
      exact yields_bind (he child (hknows child rfl) _) fun v _ => yields_pure _
  · have hchild : Plain.child? plain ev.stack id = none := hc.1.symm
    unfold Plain.nestedOutput?
    rw [hchild]
    rfl

theorem yields_deployedAttribute? (hev : w.Knows ev) (id : String) (attr : Option String)
    (resource : StackResource) : (deployedAttribute? evaluate ev id attr resource).Yields w
      (Plain.deployedAttribute? plain ev.stack id attr resource) := by
  have harn : ∀ physicalId,
      ((Job.ofExcept (Arn.attribute? ev.place resource.type physicalId attr)).bind fun value? =>
        pure (value?.map Json.string)).Yields w
      ((Arn.attribute? ev.place resource.type physicalId attr).toOption.bind fun value? =>
        some (value?.map Json.string)) := fun physicalId =>
    yields_bind (yields_ofExcept _) fun _ _ => yields_pure _
  unfold deployedAttribute? Plain.deployedAttribute?
  cases resource.type == stackType with
  | false =>
    cases resource.physicalId with
    | none => exact yields_pure _
    | some physicalId => exact harn physicalId
  | true =>
    cases attr.bind (Text.dropStart? "Outputs.") with
    | some output => exact yields_nestedOutput? he hev _ _
    | none =>
      cases resource.physicalId with
      | none => exact yields_pure _
      | some physicalId => exact harn physicalId

theorem yields_attribute? (hw : w.Obeys cloud) (hev : w.Knows ev) (id : String)
    (attr : Option String) :
    (attribute? evaluate ev id attr).Yields w (Plain.attribute? cloud plain ev.stack id attr) := by
  by_cases h : ∃ output, id = "Outputs" ∧ attr = some output
  · obtain ⟨output, rfl, rfl⟩ := h
    have htemplate : ev.stack.template = ev.template := rfl
    rw [attribute?_outputs, Plain.attribute?_outputs, htemplate]
    cases ev.template.outputValue? output with
    | none => exact yields_pure _
    | some value => exact yields_bind (he ev hev _) fun v _ => yields_pure _
  · have h : ∀ output, id = "Outputs" → attr = some output → False :=
      fun output hid hattr => h ⟨output, hid, hattr⟩
    rw [attribute?_of_ne h, Plain.attribute?_of_ne _ _ _ h]
    refine yields_bind (yields_deployed? hw hev id) fun resource _ => ?_
    cases resource with
    | none => exact yields_pure _
    | some resource => exact yields_deployedAttribute? he hev id attr resource

theorem yields_ref? (hw : w.Obeys cloud) (hev : w.Knows ev) (id : String) :
    (ref? evaluate ev id).Yields w (Plain.ref? cloud plain ev.stack id) := by
  unfold ref? Plain.ref?
  split
  · exact yields_bind (yields_query hw hev .urlSuffix) fun _ _ => yields_pure _
  · have hname : ev.stack.name = ev.stackName := rfl
    have htemplate : ev.stack.template = ev.template := rfl
    have hcontext : ev.stack.context = ev.context := rfl
    rw [hname, htemplate, hcontext]
    cases (ev.context.bindings ev.stackName).get? id with
    | some value => exact yields_pure _
    | none =>
      cases ev.template.parameterDefault? id with
      | some default => exact yields_pure _
      | none => exact yields_attribute? he hw hev id none

/-- What names, attributes and exports stand for yields what they are worth. -/
theorem yields_resolver (hw : w.Obeys cloud) (hev : w.Knows ev) :
    (ev.resolver evaluate).Yields w (Plain.meaning cloud plain ev.stack) where
  ref id := by
    show Yields w _ ((Plain.ref? cloud plain ev.stack id).bind fun value? => value?)
    exact yields_bind (yields_ref? he hw hev id) fun value? _ => yields_ofOption _ value?
  getAtt id attr := by
    show Yields w _ ((Plain.attribute? cloud plain ev.stack id attr).bind fun value? => value?)
    exact yields_bind (yields_attribute? he hw hev id attr) fun value? _ => yields_ofOption _ value?
  importValue name := by
    show Yields w _ ((cloud.reply ev.stackName ev.context.region (.exportNamed name)).bind
      fun found => (found.bind (·.value)).map Json.string)
    refine yields_bind (yields_query hw hev (.exportNamed name)) fun found _ => ?_
    rcases found with _ | ⟨n, _ | value⟩
    · exact yields_fail _
    · exact yields_fail _
    · exact yields_pure _

end Stack

/-- **The evaluation of an expression yields its plain value.** -/
theorem yields_evaluateAt (hw : w.Obeys cloud) (n : Nat) : ∀ ev, w.Knows ev → ∀ e,
    (evaluateAt n ev e).Yields w (Plain.evaluateAt cloud n ev.stack e) := by
  induction n with
  | zero => exact fun _ _ _ => rfl
  | succ n ih => exact fun ev hev e => e.yields_evaluate (yields_resolver ih hw hev)

end Evaluator

/-! ## Runs -/

/-- What can happen over a cloud, in a session at whose end these caches are open. -/
def Cloud.world (cloud : Cloud) (s : Session) : World where
  opened := s.Opened
  answers id q a := ∃ c, s.caches[id]? = some c ∧ cloud.reply c.stack c.region q = some a
  refuses id kind _ := kind = .stackResources ∧
    ∃ c, s.caches[id]? = some c ∧ cloud.inventories.get? c.stack = none

theorem Cloud.obeys_world (cloud : Cloud) (s : Session) : (cloud.world s).Obeys cloud := by
  rintro id _ _ ⟨c, hc, rfl, rfl⟩ q
  constructor
  · rintro a ⟨c', hc', ha⟩
    obtain rfl := Option.some.inj (hc.symm.trans hc')
    exact ha
  · rintro message ⟨hk, c', hc', ha⟩
    obtain rfl := Option.some.inj (hc.symm.trans hc')
    cases q with
    | inventory => exact ha
    | urlSuffix => cases hk
    | exportNamed name => cases hk

/-- A request that was made to fail. -/
def Event.injected (client : Client) : Event → Bool
  | .refused _ r n _ => client.faults.hits r.kind n
  | _ => false

namespace Run

variable {client : Client} {log : List Event} {tasks : Multiset Task} {s : Session}

/-- Runs live in the world of their cloud as long as no request is made to fail. -/
theorem admits (h : Run client log tasks s) (hd : client.cloud.DistinctExports) {e : Event}
    (he : e ∈ log) (hi : e.injected client = false) : (client.cloud.world s).Admits e := by
  obtain ⟨ht, -⟩ := h.traffic
  cases e with
  | asked id r n => trivial
  | answered id r n a => trivial
  | refused id r n message =>
    rcases ht.refused_cases he with hf | ⟨c, hc, rfl, hn⟩
    · exact absurd (hf.symm.trans hi) (by simp)
    · exact ⟨rfl, c, hc, hn⟩
  | read id q a => exact ht.reply_of_read (fun _ => hd) he

/-- An evaluation that has ended has ended with the value of plain evaluation within the same
depth. -/
theorem toOption_evaluate (h : Run client log tasks s) (hd : client.cloud.DistinctExports)
    {ev : Evaluator} {v : Json} {r : Except Failure Json} {own : List Event}
    (ht : ⟨.evaluate ev v, .done r, own⟩ ∈ tasks)
    (hev : s.Opened ev.caches ev.stackName ev.context.region)
    (hown : ∀ e ∈ own, e.injected client = false) :
    r.toOption = Plain.evaluateAt client.cloud (ev.depth + 1) ev.stack (Expr.ofJson v) := by
  have hlog : ∀ e ∈ own, (client.cloud.world s).Admits e := fun e he =>
    h.admits hd (h.mem_log ht e he) (hown e he)
  exact h.ensures (fun _ _ _ ho => ho) ht hlog
    (Evaluator.yields_evaluateAt (client.cloud.obeys_world s) _ ev hev _)

/-- **An evaluation that has ended has ended with the plain value**, if there is one, and with a
failure if there is none, as long as no request of its own was made to fail. -/
theorem evaluate_iff (h : Run client log tasks s) (hd : client.cloud.DistinctExports)
    {ev : Evaluator} (hm : Made tasks ev) {v : Json} {r : Except Failure Json} {own : List Event}
    (ht : ⟨.evaluate ev v, .done r, own⟩ ∈ tasks) (hown : ∀ e ∈ own, e.injected client = false)
    (w : Json) : r = .ok w ↔ Plain.Gives client.cloud ev.stack v w := by
  have hfit := h.fit hm
  have hdepth : Plain.enough ev.stack ≤ ev.depth + 1 := Nat.le_succ_of_le hfit.deep
  rw [Plain.gives_iff hdepth, ← h.toOption_evaluate hd ht hfit.opened hown]
  cases r with
  | ok v' => exact ⟨congrArg Except.toOption, fun hv => congrArg Except.ok (Option.some.inj hv)⟩
  | error e => exact ⟨fun hv => (nomatch hv), fun hv => (nomatch hv)⟩

/-- The URL suffix, in a stack whose first request for it was called off. -/
theorem evaluate_iff_of_urlSuffix : ∃ log tasks s ev own,
    Run ⟨{ urlSuffix := some "suffix" }, .none⟩ log tasks s ∧ Made tasks ev ∧
      ⟨.evaluate ev (.object [("Ref", .string "AWS::URLSuffix")]),
        .done (.ok (.string "suffix")), own⟩ ∈ tasks ∧
      Plain.Gives { urlSuffix := some "suffix" } ev.stack
        (.object [("Ref", .string "AWS::URLSuffix")]) (.string "suffix") := by
  let client : Client := ⟨{ urlSuffix := some "suffix" }, .none⟩
  let ev : Evaluator := .first []
  let v : Json := .object [("Ref", .string "AWS::URLSuffix")]
  let s (value : Option String) (lock : Lock) (made : Nat) : Session :=
    ⟨{ urlSuffix := made }, [{ stack := "stack", region := "region", urlSuffix := ⟨value, lock⟩ }]⟩
  let first : Lock := (Lock.enter {}).2
  let second : Lock := (first.leave 0).enter.2
  let asked (n : Nat) : Event := .asked 0 (.urlSuffix "region") n
  let opener : Task := .first []
  obtain ⟨next, hjob, hnext⟩ : ∃ next, ev.evaluate v = .ask 0 .urlSuffix .arriving next ∧
      next "suffix" = .done (.ok (.string "suffix")) := ⟨_, rfl, rfl⟩
  let t (p : Phase) (own : List Event) : Task := ⟨.evaluate ev v, .ask 0 .urlSuffix p next, own⟩
  let ended : Task := ⟨.evaluate ev v, .done (.ok (.string "suffix")),
    [asked 2, .answered 0 (.urlSuffix "region") 2 "suffix", .read 0 .urlSuffix "suffix"]⟩
  have hbegin : (⟨.evaluate ev v, (Operation.evaluate ev v).job, []⟩ : Task) = t .arriving [] :=
    congrArg (fun job => Task.mk (.evaluate ev v) job []) hjob
  have h₀ : Run client [] (opener ::ₘ 0) (s none {} 0) := Run.first client []
  have h₁ : Run client [] (t .arriving [] ::ₘ opener ::ₘ 0) (s none {} 0) :=
    hbegin ▸ .begun (.evaluate ev v) h₀
  have h₂ : Run client [asked 1] (t (.fetching 0 1 none) [asked 1] ::ₘ opener ::ₘ 0)
      (s none first 1) :=
    .moved (@Job.Move.suspended client _ _ _ 0 .urlSuffix .arriving (.fetching 0 1 none) _ rfl) h₁
  have h₃ : Run client [asked 1] (t .arriving [] ::ₘ opener ::ₘ 0) (s none (first.leave 0) 1) :=
    hbegin ▸ .begun (.evaluate ev v) (.dropped h₂)
  have h₄ : Run client [asked 1, asked 2]
      (t (.fetching 1 2 none) [asked 2] ::ₘ opener ::ₘ 0) (s none second 2) :=
    .moved (@Job.Move.suspended client _ _ _ 0 .urlSuffix .arriving (.fetching 1 2 none) _ rfl) h₃
  have h₅ : Run client (asked 1 :: ended.log) (ended ::ₘ opener ::ₘ 0)
      (s (some "suffix") (second.leave 1) 2) := by
    have h := Run.moved
      (@Job.Move.answered client _ _ _ 0 .urlSuffix (.fetching 1 2 none) _ "suffix" rfl) h₄
    rw [hnext] at h
    exact h
  have hmade : Made (ended ::ₘ opener ::ₘ 0) ev :=
    .first (Multiset.mem_cons_of_mem (Multiset.mem_cons_self opener 0))
  have hended : ended ∈ ended ::ₘ opener ::ₘ 0 := Multiset.mem_cons_self _ _
  exact ⟨_, _, _, ev, _, h₅, hmade, hended,
    (evaluate_iff h₅ .nil hmade hended (by simp [asked, Event.injected]) _).mp rfl⟩

end Run

end StackExpr
