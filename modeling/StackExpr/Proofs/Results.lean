import StackExpr.Proofs.CallFree
import StackExpr.Proofs.Evaluators
/-!
# Results are values without calls

What an evaluation takes from the stack can only be what the context binds a name to and what the
template has as the default of a parameter. **If these hold no calls, no result does**
(`Expr.returns_evaluate`, `Evaluator.returns_evaluateAt`). The parameters of a nested stack are
themselves results, so this is kept from a stack to the ones nested in it
(`Evaluator.returns_nestedEvaluator?`).

**A result is its own value, in whatever stack it is evaluated again** (`Run.results_fixed`).
-/

namespace StackExpr

/-! ## Stacks that bind values without calls -/

/-- The defaults of the template's parameters hold no calls. -/
def Template.CallFree (t : Template) : Prop :=
  ∀ p ∈ t.parameters, ∀ default, p.2.default = some default → default.CallFree

theorem Template.CallFree.parameterDefault? {t : Template} (h : t.CallFree) {name : String}
    {default : Json} (hd : t.parameterDefault? name = some default) : default.CallFree := by
  obtain ⟨p, hp, hd⟩ := Option.bind_eq_some_iff.mp hd
  exact h _ (Dict.mem_of_get? hp) default hd

namespace Evaluator

/-- The parameters of the context hold no calls, nor do the defaults in the template of the stack
and of the stacks in its tree. -/
structure CallFree (ev : Evaluator) : Prop where
  parameters : ∀ p ∈ ev.context.parameters, p.2.CallFree
  defaults : ev.template.CallFree
  nested : ∀ entry ∈ NestedStack.preorder ev.nested, entry.2.template.CallFree

variable {ev : Evaluator}

theorem CallFree.bindings (h : ev.CallFree) {name : String} {value : Json}
    (hb : (ev.context.bindings ev.stackName).get? name = some value) : value.CallFree := by
  rcases Dict.get?_or_mem_of_insertAll hb with hpseudo | hmem
  · -- The pseudo parameters are all texts.
    have hmem := Dict.mem_of_get? hpseudo
    simp only [Context.pseudoParameters, List.mem_cons, Prod.mk.injEq, List.not_mem_nil,
      or_false] at hmem
    rcases hmem with ⟨-, rfl⟩ | ⟨-, rfl⟩ | ⟨-, rfl⟩ | ⟨-, rfl⟩ <;> trivial
  · exact h.parameters _ hmem

/-- What is kept from a stack to a stack nested in it. -/
theorem CallFree.of_builtFrom (h : ev.CallFree) {child : Evaluator} {id : String} {d : NestedStack}
    (hf : NestedStack.find? id ev.nested = some d) (hc : child.BuiltFrom ev d)
    (hp : ∀ p ∈ child.context.parameters, p.2.CallFree) : child.CallFree := by
  rw [hc.declared] at hf
  have hmem := NestedStack.mem_preorder_of_find? hf
  exact ⟨hp, h.nested _ hmem, fun entry hentry =>
    h.nested entry (NestedStack.preorder_subset _ hmem hentry)⟩

end Evaluator

/-! ## Results of expressions -/

/-- What names, attributes and exports stand for are values without calls. -/
structure Resolver.CallFree (w : World) (r : Resolver) : Prop where
  ref : ∀ id, (r.ref id).Returns w Json.CallFree
  getAtt : ∀ id attr, (r.getAtt id attr).Returns w Json.CallFree
  importValue : ∀ name, (r.importValue name).Returns w Json.CallFree

theorem callFree_of_joined {delimiter : String} {vs : List Json} {v : Json}
    (h : joined delimiter vs = .ok v) : v.CallFree := by
  unfold joined at h
  cases ht : textsOf .join vs with
  | error e =>
    rw [ht] at h
    cases h
  | ok texts =>
    rw [ht] at h
    cases h
    trivial

theorem callFree_of_selected {index : Nat} {vs : List Json} {v : Json}
    (hvs : Json.CallFreeElements vs) (h : selected index vs = .ok v) : v.CallFree := by
  unfold selected at h
  split at h
  · next hv =>
    cases h
    exact Json.callFreeElements_iff.mp hvs v (List.mem_of_getElem? hv)
  · cases h

theorem callFreeElements_of_listOf {f : Function} {v : Json} {vs : List Json} (hv : v.CallFree)
    (h : f.listOf v = .ok vs) : Json.CallFreeElements vs := by
  unfold Function.listOf at h
  split at h
  · cases h
    exact hv
  · cases h

theorem callFreeElements_string (texts : List String) :
    Json.CallFreeElements (texts.map .string) := by
  rw [Json.callFreeElements_iff, List.forall_mem_map]
  exact fun _ _ => trivial

namespace Expr

variable {w : World} {r : Resolver}

mutual

/-- **The value of an expression in which calls are recognised holds no calls.** -/
theorem returns_evaluate (hr : r.CallFree w) :
    (e : Expr) → e.Recognised → (e.evaluate r).Returns w Json.CallFree
  | scalar _, h => Job.returns_pure h
  | list elements, h =>
    (Job.returns_all (returns_evaluateParts hr elements h)).bind fun _ hvs =>
      Job.returns_pure (Json.callFreeElements_iff.mpr hvs)
  | record fields, h =>
    (returns_evaluateFields hr fields h.2).bind fun _ hvs =>
      Job.returns_pure ⟨hvs.1 ▸ h.1, Json.callFreeFields_iff.mpr hvs.2⟩
  | ref id, _ => hr.ref id
  | getAtt id, _ => hr.getAtt id none
  | getAttOf id _, _ =>
    Job.returns_bind (fun _ => Job.returns_bind (fun attr => hr.getAtt id (some attr)) _) _
  | join _ _, _ =>
    Job.returns_bind (fun _ => Job.returns_bind
      (fun _ => Job.returns_ofExcept fun _ => callFree_of_joined) _) _
  | split _ _, _ =>
    Job.returns_bind (fun _ => Job.returns_bind (fun _ =>
      Job.returns_pure (show Json.CallFree (.array _) from callFreeElements_string _)) _) _
  | select _ items, h =>
    Job.returns_bind (fun _ => Job.returns_bind (fun _ =>
      (returns_evaluate hr items h).bind fun _ hv =>
        (Job.returns_ofExcept fun _ => callFreeElements_of_listOf hv).bind fun _ hvs =>
          Job.returns_ofExcept fun _ => callFree_of_selected hvs) _) _
  | sub _, _ => Job.returns_bind (fun _ => Job.returns_pure trivial) _
  | subWith _ _, _ =>
    Job.returns_bind (fun _ => Job.returns_bind (fun _ =>
      Job.returns_bind (fun _ => Job.returns_pure trivial) _) _) _
  | importValue _, _ =>
    Job.returns_bind (fun _ => Job.returns_bind (fun name => hr.importValue name) _) _
  | invalid e, _ => Job.returns_fail e

theorem returns_evaluateParts (hr : r.CallFree w) : (es : List Expr) → RecognisedAll es →
    ∀ part ∈ evaluateParts r es, part.Returns w Json.CallFree
  | [], _ => fun _ hpart => absurd hpart List.not_mem_nil
  | e :: es, h =>
    List.forall_mem_cons.mpr ⟨returns_evaluate hr e h.1, returns_evaluateParts hr es h.2⟩

theorem returns_evaluateFields (hr : r.CallFree w) :
    (fs : List (String × Expr)) → RecognisedFields fs → (evaluateFields r fs).Returns w fun vs =>
      vs.map Prod.fst = fs.map Prod.fst ∧ ∀ f ∈ vs, f.2.CallFree
  | [], _ => Job.returns_pure ⟨rfl, fun _ hf => absurd hf List.not_mem_nil⟩
  | (k, e) :: fs, h =>
    (returns_evaluate hr e h.1).bind fun _ hv =>
      (returns_evaluateFields hr fs h.2).bind fun _ hrest =>
        Job.returns_pure ⟨congrArg (k :: ·) hrest.1, List.forall_mem_cons.mpr ⟨hv, hrest.2⟩⟩

end

end Expr

/-! ## Results in a stack -/

namespace Evaluator

section Steps

variable {w : World} {evaluate : Evaluate} {ev : Evaluator}
  (he : ∀ ev : Evaluator, ev.CallFree → ∀ e : Expr, e.Recognised →
    (evaluate ev e).Returns w Json.CallFree)

include he

theorem returns_nestedParameters (hev : ev.CallFree) (id : String) :
    (nestedParameters evaluate ev id).Returns w fun values => ∀ p ∈ values, p.2.CallFree := by
  unfold nestedParameters
  split
  · exact Job.returns_pure fun _ hp => absurd hp List.not_mem_nil
  · next parameters _ =>
    refine (he ev hev _ (Expr.recognised_ofJson parameters)).bind fun v hv => ?_
    split
    · exact Job.returns_pure (Json.callFreeFields_iff.mp hv.2)
    · exact Job.returns_fail _

/-- **What is asked of a stack is kept by the stacks nested in it**, whose parameters are results
of the stack. -/
theorem returns_nestedEvaluator? (hev : ev.CallFree) (id : String) :
    (nestedEvaluator? evaluate ev id).Returns w fun child? => ∀ child ∈ child?, child.CallFree := by
  unfold nestedEvaluator?
  split
  · next name template inner hf =>
    refine (returns_nestedParameters he hev id).bind fun parameters hp => ?_
    rintro caches - _ ⟨⟩ _ ⟨⟩
    exact hev.of_builtFrom hf ⟨rfl, rfl, rfl⟩ hp
  · exact Job.returns_pure fun _ hchild => nomatch hchild

theorem returns_nestedOutput? (hev : ev.CallFree) (id output : String) :
    (nestedOutput? evaluate ev id output).Returns w fun v? => ∀ v ∈ v?, v.CallFree := by
  refine (returns_nestedEvaluator? he hev id).bind fun child? hchild => ?_
  cases child? with
  | none => exact Job.returns_pure fun _ hv => nomatch hv
  | some child =>
    have hout : (Expr.getAttOf "Outputs" (.scalar (.string output))).Recognised := trivial
    exact (he child (hchild child rfl) _ hout).bind fun v hv =>
      Job.returns_pure fun _ hv' => Option.some.inj hv' ▸ hv

theorem returns_deployedAttribute? (hev : ev.CallFree) (id : String) (attr : Option String)
    (resource : StackResource) :
    (deployedAttribute? evaluate ev id attr resource).Returns w fun v? => ∀ v ∈ v?, v.CallFree := by
  unfold deployedAttribute?
  split
  · exact returns_nestedOutput? he hev id _
  · exact Job.returns_pure fun _ hv => nomatch hv
  · refine Job.returns_bind (fun text? => Job.returns_pure fun v hv => ?_) _
    obtain ⟨text, -, rfl⟩ := Option.map_eq_some_iff.mp hv
    trivial

theorem returns_attribute? (hev : ev.CallFree) (id : String) (attr : Option String) :
    (attribute? evaluate ev id attr).Returns w fun v? => ∀ v ∈ v?, v.CallFree := by
  by_cases h : ∃ output, id = "Outputs" ∧ attr = some output
  · obtain ⟨output, rfl, rfl⟩ := h
    rw [attribute?_outputs]
    cases ev.template.outputValue? output with
    | none => exact Job.returns_pure fun _ hv => nomatch hv
    | some value =>
      exact (he ev hev _ (Expr.recognised_ofJson value)).bind fun v hv =>
        Job.returns_pure fun _ hv' => Option.some.inj hv' ▸ hv
  · rw [attribute?_of_ne fun output hid hattr => h ⟨output, hid, hattr⟩]
    refine Job.returns_bind (fun resource? => ?_) _
    cases resource? with
    | none => exact Job.returns_pure fun _ hv => nomatch hv
    | some resource => exact returns_deployedAttribute? he hev id attr resource

theorem returns_ref? (hev : ev.CallFree) (id : String) :
    (ref? evaluate ev id).Returns w fun v? => ∀ v ∈ v?, v.CallFree := by
  unfold ref?
  split
  · exact Job.returns_bind (fun _ => Job.returns_pure fun _ hv => Option.some.inj hv ▸ trivial) _
  · split
    · next value hb => exact Job.returns_pure fun _ hv => Option.some.inj hv ▸ hev.bindings hb
    · next default _ hd =>
      exact Job.returns_pure fun _ hv =>
        Option.some.inj hv ▸ hev.defaults.parameterDefault? hd
    · exact returns_attribute? he hev id none

theorem callFree_resolver (hev : ev.CallFree) : (ev.resolver evaluate).CallFree w where
  ref id := (returns_ref? he hev id).bind fun _ hv => Job.returns_ofOption fun v h => hv v h
  getAtt id attr :=
    (returns_attribute? he hev id attr).bind fun _ hv => Job.returns_ofOption fun v h => hv v h
  importValue name := by
    refine Job.returns_bind (fun found => ?_) _
    split
    · exact Job.returns_fail _
    · exact Job.returns_fail _
    · exact Job.returns_pure trivial

end Steps

/-- **No result holds a call**, through whatever expressions it was reached. -/
theorem returns_evaluateAt (w : World) : (n : Nat) → ∀ ev : Evaluator, ev.CallFree →
    ∀ e : Expr, e.Recognised → (evaluateAt n ev e).Returns w Json.CallFree
  | 0, _, _, _, _ => fun _ hv => nomatch hv
  | n + 1, _, hev, e, he =>
    Expr.returns_evaluate (callFree_resolver (returns_evaluateAt w n) hev) e he

end Evaluator

/-! ## Results in a run -/

section Runs

variable {client : Client} {log : List Event} {tasks : Multiset Task} {s : Session}

/-- An evaluator evaluates a value without calls to itself, and needs nothing from outside. -/
theorem Evaluator.offline?_evaluate (ev : Evaluator) {v : Json} (hv : v.CallFree) :
    (ev.evaluate v).offline? = some (.ok v) :=
  Expr.offline?_evaluate_ofJson _ v hv

/-- **Results are values without calls, and these are their own values.**

* Whatever evaluator a value without calls is given to, it comes to this value at once, whatever the
  session is, and leaves the session as it is. In a run it does nothing else either.
* An evaluator that only binds values without calls, in its stack and in those nested in it, has no
  other results. So a result is its own value, in whatever evaluator it is evaluated again. -/
theorem Run.results_fixed (h : Run client log tasks s) (ev : Evaluator) :
    (∀ v : Json, v.CallFree →
      (∀ s', (ev.evaluate v).step client s' = (.done (.ok v), s')) ∧
      ∀ job own, ⟨.evaluate ev v, job, own⟩ ∈ tasks → own = [] ∧ ∀ r, job = .done r → r = .ok v) ∧
    (ev.CallFree → ∀ v w own, ⟨.evaluate ev v, .done (.ok w), own⟩ ∈ tasks → w.CallFree ∧
      ∀ (ev' : Evaluator) s', (ev'.evaluate w).step client s' = (.done (.ok w), s')) := by
  refine ⟨fun v hv => ⟨fun s' => ?_, fun job own ht => ?_⟩, fun hev v w own ht => ?_⟩
  · exact Job.step_of_offline? client _ (ev.offline?_evaluate hv) s'
  · have hop : (Operation.evaluate ev v).job.offline? = some (.ok v) := ev.offline?_evaluate hv
    obtain ⟨hown, hended⟩ := h.offline ht hop
    refine ⟨hown, fun r hr => ?_⟩
    obtain ⟨ended, rfl, hv⟩ := hended r hr
    cases ended with
    | error e => cases hv
    | ok w =>
      cases hv
      rfl
  · have hw : w.CallFree :=
      h.canEnd ht _ (Evaluator.returns_evaluateAt _ _ ev hev _ (Expr.recognised_ofJson v)) w rfl
    exact ⟨hw, fun ev' s' => Job.step_of_offline? client _ (ev'.offline?_evaluate hw) s'⟩

end Runs

/-- An object with several keys that calls are made by. -/
def severalKeys : Json := .object [("Ref", .string "region"), ("Fn::Sub", .null)]

/-- A call that selects such an object from a list. -/
def selectSeveralKeys : Json :=
  .object [("Fn::Select", .array [.string "1", .array [.null,
    .object [("Ref", .object [("Ref", .string "AWS::Region")]), ("Fn::Sub", .null)]]])]

/-- An object with several keys is no call, so it is its own value. -/
theorem results_fixed_of_severalKeys : ∃ tasks s own,
    Run ⟨{}, .none⟩ [] tasks s ∧ (Evaluator.first []).CallFree ∧
      ⟨.evaluate (.first []) selectSeveralKeys, .done (.ok severalKeys), own⟩ ∈ tasks ∧
      severalKeys.CallFree ∧ ∀ (ev : Evaluator) s',
        (ev.evaluate severalKeys).step ⟨{}, .none⟩ s' = (.done (.ok severalKeys), s') := by
  let task : Task := ⟨.evaluate (.first []) selectSeveralKeys, .done (.ok severalKeys), []⟩
  have hev : (Evaluator.first []).CallFree := by
    refine ⟨fun _ hp => absurd hp List.not_mem_nil, fun _ hp => absurd hp List.not_mem_nil, ?_⟩
    rw [Evaluator.first, NestedStack.preorder]
    exact fun _ he => absurd he List.not_mem_nil
  have h : Run ⟨{}, .none⟩ [] (task ::ₘ Task.first [] ::ₘ 0) _ :=
    (Run.moved (.gathered rfl)
      (.begun (.evaluate (.first []) selectSeveralKeys) (Run.first ⟨{}, .none⟩ [])) :)
  have ht : task ∈ task ::ₘ Task.first [] ::ₘ 0 := Multiset.mem_cons_self _ _
  obtain ⟨hw, hagain⟩ := (h.results_fixed (.first [])).2 hev selectSeveralKeys _ _ ht
  exact ⟨_, _, _, h, hev, ht, hw, hagain⟩

end StackExpr
