import StackExpr.Proofs.Failures
import StackExpr.Proofs.NestedOutput
import StackExpr.Proofs.Plain.Fails
/-!
# Failures are attributed to the part that failed

`Plain.Fails` tells, without caches and schedules, as what an expression may fail: where its parts
are evaluated one after the other, as the first that has no value. **An evaluation fails only so**
(`Run.failure_attributed`), whatever is known in the caches and whatever is done meanwhile: the
elements of a list run side by side, and in a short one the failure that is noticed first wins; but
it is always the failure of one of them.

What a part is worth when it has a value is known already (`Evaluator.yields_evaluateAt`). So it is
enough to follow the failures (`Job.FailsWith`).
-/

namespace StackExpr

/-! ## What a job fails with -/

namespace Job

variable {α β : Type} {w : World} {F G : Failure → Prop}

/-- Whatever failure the job can end with satisfies a condition, unless the job gives up. -/
def FailsWith (w : World) (F : Failure → Prop) (job : Job α) : Prop :=
  job.Ensures w fun r => ∀ f, r = .error f → f = .tooDeep ∨ F f

theorem FailsWith.mono {job : Job α} (h : job.FailsWith w F) (hF : ∀ f, F f → G f) :
    job.FailsWith w G :=
  Ensures.mono (fun _ hr f hf => (hr f hf).imp_right (hF f)) h

theorem failsWith_pure (a : α) : (pure a : Job α).FailsWith w F := by
  rintro f ⟨⟩

theorem failsWith_fail {e : EvalError} (h : F (.evaluation e)) :
    (fail e : Job α).FailsWith w F := by
  rintro f ⟨⟩
  exact Or.inr h

theorem failsWith_ofExcept {r : Except EvalError α} (h : ∀ e, r = .error e → F (.evaluation e)) :
    (ofExcept r).FailsWith w F := by
  cases r with
  | ok a => exact failsWith_pure a
  | error e => exact failsWith_fail (h e rfl)

theorem failsWith_ofOption {e : EvalError} {o : Option α} (h : o = none → F (.evaluation e)) :
    (ofOption e o).FailsWith w F := by
  cases o with
  | some a => exact failsWith_pure a
  | none => exact failsWith_fail (h rfl)

/-- What a job goes on with counts only for the value that the job yields. -/
theorem failsWith_bind {f : α → Job β} {job : Job α} {o : Option α} (hy : job.Yields w o)
    (h : job.FailsWith w F) (hf : ∀ a, o = some a → (f a).FailsWith w F) :
    (job.bind f).FailsWith w F := by
  refine ensures_bind (fun a ha => ?_) (fun e he => ?_) (Ensures.and hy h)
  · exact hf a ha.1.symm
  · rintro f ⟨⟩
    exact he.2 e rfl

/-- Parts that run side by side fail as one of them: as any if they are few, and otherwise as the
first that has no value. -/
theorem failsWith_all {m : Plain.Meaning} {es : List Expr} {parts : List (Job Json)}
    {F : Expr → Failure → Prop}
    (h : List.Forall₂ (fun part e => part.Yields w (Plain.value m e) ∧ part.FailsWith w (F e))
      parts es) :
    (all parts).FailsWith w fun f => ∃ before e after, es = before ++ e :: after ∧ F e f ∧
      (es.length ≤ shortLength ∨ ∀ e' ∈ before, ∃ v, Plain.value m e' = some v) := by
  have hp : List.Forall₂ (Ensures w) parts (es.map fun e r =>
      Except.toOption r = Plain.value m e ∧ ∀ f, r = .error f → f = .tooDeep ∨ F e f) := by
    rw [List.forall₂_map_right_iff]
    exact h.imp fun _ _ h => h.1.and h.2
  refine ensures_all hp (fun vs _ f hf => nomatch hf) ?_
  rintro before P after f hPs hP hfirst _ ⟨⟩
  obtain ⟨before', _, rfl, rfl, hcons⟩ := List.map_eq_append_iff.mp hPs
  obtain ⟨e, after', rfl, rfl, rfl⟩ := List.map_eq_cons_iff.mp hcons
  refine (hP.2 f rfl).imp_right fun hF => ⟨before', e, after', rfl, hF, ?_⟩
  refine hfirst.imp (fun hlength => by simpa using hlength) fun hbefore e' he' => ?_
  obtain ⟨v, hv, -⟩ := hbefore _ (List.mem_map_of_mem he')
  exact ⟨v, hv.symm⟩

end Job

open Job

/-! ## Expressions -/

section Expr

variable {w : World} {cloud : Cloud} {st : Stack} {n : Nat} {r : Resolver}

/-- A resolver yields what names, attributes and exports are worth, and fails with what the
expressions fail with that are resolved. -/
structure Resolver.FailsAs (w : World) (cloud : Cloud) (n : Nat) (st : Stack) (r : Resolver) :
    Prop where
  yields : r.Yields w (Plain.meaning cloud (Plain.evaluateAt cloud n) st)
  ref : ∀ id, (r.ref id).FailsWith w (Plain.Fails cloud st (.ref id))
  getAtt : ∀ {e : Expr} {id : String} {attr : Option String},
    Plain.LooksUp cloud st e id attr (.unresolvedAttribute id (attr.getD "")) →
    (r.getAtt id attr).FailsWith w (Plain.Fails cloud st e)
  importValue : ∀ name, (r.importValue name).FailsWith w fun f => ∃ err, f = .evaluation err ∧
    ∀ arg v, Function.importValue.stringOf v = .ok name →
      Plain.Objects cloud (.importValue arg) v err

/-- A substitution fails at the first placeholder without a text. -/
theorem failsWith_substitute (hr : r.FailsAs w cloud n st) (vars : Dict Json) :
    (segments : List Sub.Segment) →
    (substitute r vars segments).FailsWith w fun f => ∃ before name after,
      segments = before ++ .placeholder name :: after ∧
      (∀ name', .placeholder name' ∈ before → Plain.Fills cloud st vars name') ∧
      (Plain.Fails cloud st (.ofPlaceholder vars name) f ∨
        ∃ v err, Plain.Worth cloud st (.ofPlaceholder vars name) v ∧
          substituted name v = .error err ∧ f = .evaluation err)
  | [] => failsWith_pure _
  | .literal text :: segments => by
    refine failsWith_bind (yields_substitute hr.yields vars segments)
      ((failsWith_substitute hr vars segments).mono ?_) fun _ _ => failsWith_pure _
    rintro f ⟨before, name, after, rfl, hbefore, hf⟩
    exact ⟨.literal text :: before, name, after, rfl,
      fun name' h => hbefore name' ((List.mem_cons.mp h).resolve_left (by simp)), hf⟩
  | .placeholder name :: segments => by
    rw [substitute_placeholder]
    have htarget : ((vars.get? name).elim (r.target (.ofPlaceholder name)) pure).Yields w
        (Plain.value (Plain.meaning cloud (Plain.evaluateAt cloud n) st)
          (.ofPlaceholder vars name)) := by
      rw [Plain.value_ofPlaceholder]
      cases vars.get? name with
      | some v => exact yields_pure v
      | none => exact hr.yields.target _
    have hfails : ((vars.get? name).elim (r.target (.ofPlaceholder name)) pure).FailsWith w
        (Plain.Fails cloud st (.ofPlaceholder vars name)) := by
      unfold Expr.ofPlaceholder
      cases vars.get? name with
      | some v => exact failsWith_pure v
      | none =>
        cases Sub.Target.ofPlaceholder name with
        | ref id => exact hr.ref id
        | getAtt id attr => exact hr.getAtt (.getAttOf ⟨1, rfl⟩ rfl)
    refine failsWith_bind htarget
      (hfails.mono fun f hf => ⟨[], name, segments, rfl, by simp, Or.inl hf⟩) fun v hv => ?_
    have hv : Plain.Worth cloud st (.ofPlaceholder vars name) v := ⟨n + 1, hv⟩
    refine failsWith_bind (yields_ofExcept _) (failsWith_ofExcept fun err herr =>
      ⟨[], name, segments, rfl, by simp, Or.inr ⟨v, err, hv, herr, rfl⟩⟩) fun text htext => ?_
    have htext := Plain.ok_of_toOption htext
    refine failsWith_bind (yields_substitute hr.yields vars segments)
      ((failsWith_substitute hr vars segments).mono ?_) fun _ _ => failsWith_pure _
    rintro f ⟨before, name', after, rfl, hbefore, hf⟩
    refine ⟨.placeholder name :: before, name', after, rfl, fun name'' h => ?_, hf⟩
    rcases List.mem_cons.mp h with h | h
    · cases h
      exact ⟨v, text, hv, htext⟩
    · exact hbefore name'' h

theorem failsWith_sub (hr : r.FailsAs w cloud n st) {e : Expr} {template : String}
    {vars : Dict Json} (he : Plain.Substitutes cloud st e template vars) :
    (substitute r vars (Sub.parse template)).FailsWith w (Plain.Fails cloud st e) := by
  refine (failsWith_substitute hr vars _).mono ?_
  rintro f ⟨before, name, after, hparse, hbefore, hf | ⟨v, err, hv, herr, rfl⟩⟩
  · exact .placeholder he hparse hbefore hf
  · exact .notText he hparse hbefore hv herr

mutual

/-- **An expression fails as one of its parts, or objects to what they are worth.** -/
theorem Expr.failsWith_evaluate (hr : r.FailsAs w cloud n st) :
    (e : Expr) → (e.evaluate r).FailsWith w (Plain.Fails cloud st e)
  | .scalar v => failsWith_pure v
  | .list elements => by
    have hparts := failsWith_all (Expr.failsWith_evaluateParts hr elements)
    refine failsWith_bind (yields_all (Expr.yields_evaluateParts hr.yields elements))
      (hparts.mono ?_) fun _ _ => failsWith_pure _
    rintro f ⟨before, e, after, rfl, hf, hfirst⟩
    exact .element hf (hfirst.imp_right fun h e' he' => (h e' he').imp fun v hv => ⟨n + 1, hv⟩)
  | .record fields => by
    refine failsWith_bind (Expr.yields_evaluateFields hr.yields fields)
      ((Expr.failsWith_evaluateFields hr fields).mono ?_) fun _ _ => failsWith_pure _
    rintro f ⟨before, k, e, after, rfl, hf, hfirst⟩
    exact .field hf hfirst
  | .ref id => hr.ref id
  | .getAtt id => hr.getAtt (.getAtt id)
  | .getAttOf id attr =>
    failsWith_bind (Expr.yields_evaluate hr.yields attr)
      ((Expr.failsWith_evaluate hr attr).mono fun f hf => .argument rfl hf) fun v hv =>
      have hv : Plain.Worth cloud st attr v := ⟨n + 1, hv⟩
      failsWith_bind (yields_ofExcept _)
        (failsWith_ofExcept fun err herr => .objection rfl hv (.getAttOf herr)) fun name hname =>
        hr.getAtt (.getAttOf hv (Plain.ok_of_toOption hname))
  | .join delimiter items =>
    failsWith_bind (Expr.yields_evaluate hr.yields items)
      ((Expr.failsWith_evaluate hr items).mono fun f hf => .argument rfl hf) fun v hv =>
      have hv : Plain.Worth cloud st items v := ⟨n + 1, hv⟩
      failsWith_bind (yields_ofExcept _)
        (failsWith_ofExcept fun err herr => .objection rfl hv (.notList herr)) fun vs hvs =>
        failsWith_ofExcept fun err herr =>
          .objection rfl hv (.join (Plain.ok_of_toOption hvs) herr)
  | .split delimiter text =>
    failsWith_bind (Expr.yields_evaluate hr.yields text)
      ((Expr.failsWith_evaluate hr text).mono fun f hf => .argument rfl hf) fun v hv =>
      failsWith_bind (yields_ofExcept _)
        (failsWith_ofExcept fun err herr => .objection rfl ⟨n + 1, hv⟩ (.split herr)) fun _ _ =>
        failsWith_pure _
  | .select index items =>
    failsWith_bind (Expr.yields_evaluate hr.yields index)
      ((Expr.failsWith_evaluate hr index).mono fun f hf => .argument rfl hf) fun v hv =>
      have hv : Plain.Worth cloud st index v := ⟨n + 1, hv⟩
      failsWith_bind (yields_ofExcept _)
        (failsWith_ofExcept fun err herr => .objection rfl hv (.select herr)) fun i hi =>
        have hi := Plain.ok_of_toOption hi
        failsWith_bind (Expr.yields_evaluate hr.yields items)
          ((Expr.failsWith_evaluate hr items).mono fun f hf => .selectFrom hv hi hf) fun v' hv' =>
          have hv' : Plain.Worth cloud st items v' := ⟨n + 1, hv'⟩
          failsWith_bind (yields_ofExcept _)
            (failsWith_ofExcept fun err herr => .notList hv hi hv' herr) fun vs hvs =>
            failsWith_ofExcept fun err herr =>
              .outOfRange hv hi hv' (Plain.ok_of_toOption hvs) herr
  | .sub template =>
    failsWith_bind (yields_substitute hr.yields _ _) (failsWith_sub hr (.sub template)) fun _ _ =>
      failsWith_pure _
  | .subWith template bindings =>
    failsWith_bind (Expr.yields_evaluate hr.yields bindings)
      ((Expr.failsWith_evaluate hr bindings).mono fun f hf => .argument rfl hf) fun v hv =>
      have hv : Plain.Worth cloud st bindings v := ⟨n + 1, hv⟩
      failsWith_bind (yields_ofExcept _)
        (failsWith_ofExcept fun err herr => .objection rfl hv (.subWith herr)) fun vars hvars =>
        failsWith_bind (yields_substitute hr.yields _ _)
          (failsWith_sub hr (.subWith hv (Plain.ok_of_toOption hvars))) fun _ _ =>
          failsWith_pure _
  | .importValue arg =>
    failsWith_bind (Expr.yields_evaluate hr.yields arg)
      ((Expr.failsWith_evaluate hr arg).mono fun f hf => .argument rfl hf) fun v hv =>
      have hv : Plain.Worth cloud st arg v := ⟨n + 1, hv⟩
      failsWith_bind (yields_ofExcept _)
        (failsWith_ofExcept fun err herr => .objection rfl hv (.importValue herr)) fun name hname =>
        (hr.importValue name).mono fun f ⟨err, hf, ho⟩ =>
          hf ▸ .objection rfl hv (ho arg v (Plain.ok_of_toOption hname))
  | .invalid e => failsWith_fail (.invalid st e)

theorem Expr.failsWith_evaluateParts (hr : r.FailsAs w cloud n st) : (es : List Expr) →
    List.Forall₂ (fun part e =>
      part.Yields w (Plain.value (Plain.meaning cloud (Plain.evaluateAt cloud n) st) e) ∧
        part.FailsWith w (Plain.Fails cloud st e)) (Expr.evaluateParts r es) es
  | [] => .nil
  | e :: es =>
    .cons ⟨Expr.yields_evaluate hr.yields e, Expr.failsWith_evaluate hr e⟩
      (Expr.failsWith_evaluateParts hr es)

theorem Expr.failsWith_evaluateFields (hr : r.FailsAs w cloud n st) :
    (fields : List (String × Expr)) →
    (Expr.evaluateFields r fields).FailsWith w fun f => ∃ before k e after,
      fields = before ++ (k, e) :: after ∧ Plain.Fails cloud st e f ∧
        ∀ field ∈ before, ∃ v, Plain.Worth cloud st field.2 v
  | [] => failsWith_pure _
  | (k, e) :: fields => by
    refine failsWith_bind (Expr.yields_evaluate hr.yields e) ((Expr.failsWith_evaluate hr e).mono
      fun f hf => ⟨[], k, e, fields, rfl, hf, by simp⟩) fun v hv => ?_
    refine failsWith_bind (Expr.yields_evaluateFields hr.yields fields)
      ((Expr.failsWith_evaluateFields hr fields).mono ?_) fun _ _ => failsWith_pure _
    rintro f ⟨before, k', e', after, rfl, hf, hbefore⟩
    exact ⟨(k, e) :: before, k', e', after, rfl, hf,
      List.forall_mem_cons.mpr ⟨⟨v, n + 1, hv⟩, hbefore⟩⟩

end

end Expr

/-! ## Evaluators -/

/-- Readers are told what the cloud would reply, and refused only the resources of a stack that is
not there, in the words of the cloud. -/
structure World.Quotes (w : World) (cloud : Cloud) : Prop where
  obeys : w.Obeys cloud
  refuses : ∀ {id : Nat} {stack region : String}, w.opened id stack region →
    ∀ {kind : RequestKind} {message : String}, w.refuses id kind message →
    kind = .stackResources ∧ cloud.answer (.stackResources stack) = .error message

namespace Evaluator

/-- An attribute of a deployed resource is an output of a nested stack or follows from the physical
id. -/
theorem deployedAttribute?_eq (evaluate : Evaluate) (ev : Evaluator) (id : String)
    (attr : Option String) (resource : StackResource) :
    deployedAttribute? evaluate ev id attr resource = (resource.outputNamed? attr).elim
      (resource.physicalId.elim (pure none) fun physicalId =>
        (Job.ofExcept (Arn.attribute? ev.place resource.type physicalId attr)).bind fun value? =>
          pure (value?.map .string))
      (nestedOutput? evaluate ev id) := by
  unfold deployedAttribute? StackResource.outputNamed?
  by_cases htype : resource.type = stackType
  · have hstack : (resource.type == stackType) = true := beq_iff_eq.mpr htype
    rw [hstack, if_pos htype]
    cases attr.bind (Text.dropStart? "Outputs.") with
    | some output => rfl
    | none => cases resource.physicalId <;> rfl
  · have hstack : (resource.type == stackType) = false := beq_eq_false_iff_ne.mpr htype
    rw [hstack, if_neg htype]
    cases resource.physicalId <;> rfl

variable {w : World} {cloud : Cloud} {n : Nat} {ev : Evaluator} {e : Expr} {id : String}
  {attr : Option String} {err : EvalError} (hw : w.Quotes cloud)
include hw

theorem failsWith_deployed? (hev : w.Knows ev) (id : String) :
    (ev.deployed? id).FailsWith w fun f => ∃ message, f = .client message ∧
      cloud.answer (.stackResources ev.stackName) = .error message := by
  refine ⟨fun _ _ => failsWith_pure _, fun message hm => ?_⟩
  rintro _ ⟨⟩
  exact Or.inr ⟨message, rfl, (hw.refuses hev hm).2⟩

/-- Only requests for the resources of a stack are refused. -/
theorem failsWith_query {F : Failure → Prop} (hev : w.Knows ev) {q : Query}
    (hq : q.kind ≠ .stackResources) : (Job.query ev.caches q).FailsWith w F :=
  ⟨fun _ _ => failsWith_pure _, fun _ hm => absurd (hw.refuses hev hm).1 hq⟩

section Stack

variable (he : ∀ ev, w.Knows ev → ∀ e,
  (evaluateAt n ev e).FailsWith w (Plain.Fails cloud ev.stack e))
include he

theorem failsWith_nestedEvaluator? (hev : w.Knows ev) {resource : StackResource} {output : String}
    (hlook : Plain.LooksUp cloud ev.stack e id attr err)
    (hdeployed : Plain.Deployed cloud ev.stack id attr resource)
    (houtput : resource.outputNamed? attr = some output) :
    (nestedEvaluator? (evaluateAt n) ev id).FailsWith w (Plain.Fails cloud ev.stack e) := by
  have hy := yields_evaluateAt hw.obeys n
  unfold nestedEvaluator?
  rcases hf : NestedStack.find? id ev.nested with _ | ⟨_ | name, template, inner⟩
  · exact failsWith_pure _
  · exact failsWith_pure _
  · refine failsWith_bind (yields_nestedParameters hy hev id) ?_ fun _ _ caches _ =>
      failsWith_pure _
    unfold nestedParameters
    cases hp : ev.template.property? id "Parameters" with
    | none => exact failsWith_pure _
    | some parameters =>
      have hdeclared : Plain.Declares ev.stack id parameters := ⟨⟨name, template, inner, hf⟩, hp⟩
      refine failsWith_bind (hy ev hev _) ((he ev hev _).mono fun f hf =>
        .parameters hlook hdeployed houtput hdeclared hf) fun v hv => ?_
      cases v with
      | object values => exact failsWith_pure _
      | _ =>
        exact failsWith_fail (.notObject hlook hdeployed houtput hdeclared ⟨n, hv⟩ (by simp))

theorem failsWith_nestedOutput? (hev : w.Knows ev) {resource : StackResource} {output : String}
    (hlook : Plain.LooksUp cloud ev.stack e id attr err)
    (hdeployed : Plain.Deployed cloud ev.stack id attr resource)
    (houtput : resource.outputNamed? attr = some output) :
    (nestedOutput? (evaluateAt n) ev id output).FailsWith w (Plain.Fails cloud ev.stack e) := by
  have hy := yields_evaluateAt hw.obeys n
  refine ensures_bind (fun child hchild => ?_) (fun f hf => ?_)
    ((ensures_nestedEvaluator? hy hev id).and
      (failsWith_nestedEvaluator? hw he hev hlook hdeployed houtput))
  · obtain ⟨⟨hplain, hknows⟩, -⟩ := hchild
    cases child with
    | none => exact failsWith_pure _
    | some child =>
      refine failsWith_bind (hy child (hknows child rfl) _)
        ((he child (hknows child rfl) _).mono fun f hf => ?_) fun _ _ => failsWith_pure _
      exact .nestedOutput hlook hdeployed houtput hplain.symm hf
  · rintro _ ⟨⟩
    exact hf.2 f rfl

theorem failsWith_deployedAttribute? (hev : w.Knows ev) {resource : StackResource}
    (hlook : Plain.LooksUp cloud ev.stack e id attr err)
    (hdeployed : Plain.Deployed cloud ev.stack id attr resource) :
    (deployedAttribute? (evaluateAt n) ev id attr resource).FailsWith w
      (Plain.Fails cloud ev.stack e) := by
  rw [deployedAttribute?_eq]
  cases houtput : resource.outputNamed? attr with
  | some output => exact failsWith_nestedOutput? hw he hev hlook hdeployed houtput
  | none =>
    cases hphysical : resource.physicalId with
    | none => exact failsWith_pure _
    | some physicalId =>
      refine failsWith_bind (yields_ofExcept _) (failsWith_ofExcept fun err' herr => ?_)
        fun _ _ => failsWith_pure _
      exact .unsupported hlook hdeployed houtput hphysical herr

theorem failsWith_attribute? (hev : w.Knows ev)
    (hlook : Plain.LooksUp cloud ev.stack e id attr err) :
    (attribute? (evaluateAt n) ev id attr).FailsWith w (Plain.Fails cloud ev.stack e) := by
  have hy := yields_evaluateAt hw.obeys n
  by_cases h : ∃ output, id = "Outputs" ∧ attr = some output
  · obtain ⟨output, rfl, rfl⟩ := h
    rw [attribute?_outputs]
    cases hvalue : ev.template.outputValue? output with
    | none => exact failsWith_pure _
    | some value =>
      exact failsWith_bind (hy ev hev _)
        ((he ev hev _).mono fun f hf => .ownOutput hlook hvalue hf) fun _ _ => failsWith_pure _
  · have hattr : Plain.OfResource id attr := fun output hid ha => h ⟨output, hid, ha⟩
    rw [attribute?_of_ne hattr]
    refine failsWith_bind (yields_deployed? hw.obeys hev id)
      ((failsWith_deployed? hw hev id).mono ?_) fun resource hresource => ?_
    · rintro _ ⟨message, rfl, hmessage⟩
      exact .unlisted hlook hattr hmessage
    · cases resource with
      | none => exact failsWith_pure _
      | some resource =>
        exact failsWith_deployedAttribute? hw he hev hlook ⟨hattr, hresource⟩

/-- What is looked up and is not there is an error of its own. -/
theorem failsWith_lookup (hev : w.Knows ev) (hlook : Plain.LooksUp cloud ev.stack e id attr err) :
    ((attribute? (evaluateAt n) ev id attr).bind (Job.ofOption err)).FailsWith w
      (Plain.Fails cloud ev.stack e) := by
  have hy := yields_attribute? (yields_evaluateAt hw.obeys n) hw.obeys hev id attr
  refine failsWith_bind hy (failsWith_attribute? hw he hev hlook) fun value? hvalue =>
    failsWith_ofOption ?_
  rintro rfl
  exact .unresolved hlook hvalue

theorem failsAs_resolver (hev : w.Knows ev) :
    (ev.resolver (evaluateAt n)).FailsAs w cloud n ev.stack where
  yields := yields_resolver (yields_evaluateAt hw.obeys n) hw.obeys hev
  ref id := by
    show ((ref? (evaluateAt n) ev id).bind (Job.ofOption (.unresolvedRef id))).FailsWith w _
    unfold ref?
    split
    · show ((Job.bind _ _).bind _).FailsWith w _
      rw [bind_bind]
      exact failsWith_bind (yields_query hw.obeys hev .urlSuffix)
        (failsWith_query hw hev (by decide)) fun _ _ => failsWith_pure _
    · next hsuffix =>
      cases hbinding : (ev.context.bindings ev.stackName).get? id with
      | some value => exact failsWith_pure _
      | none =>
        cases hdefault : ev.template.parameterDefault? id with
        | some default => exact failsWith_pure _
        | none => exact failsWith_lookup hw he hev (.ref hsuffix hbinding hdefault)
  getAtt hlook := failsWith_lookup hw he hev hlook
  importValue name := by
    refine failsWith_bind (yields_query hw.obeys hev (.exportNamed name))
      (failsWith_query hw hev (fun hq => nomatch hq)) fun found hfound => ?_
    have hfound : cloud.exportNamed? name = found := Option.some.inj hfound
    rcases found with _ | ⟨exported, _ | value⟩
    · exact failsWith_fail ⟨_, rfl, fun _ _ hv => .notFound hv hfound⟩
    · exact failsWith_fail ⟨_, rfl, fun _ _ hv => .withoutValue hv hfound rfl⟩
    · exact failsWith_pure _

end Stack

/-- **An evaluation fails as the expression does.** -/
theorem failsWith_evaluateAt (n : Nat) : ∀ ev, w.Knows ev → ∀ e,
    (evaluateAt n ev e).FailsWith w (Plain.Fails cloud ev.stack e) := by
  induction n with
  | zero =>
    rintro ev hev e f ⟨⟩
    exact Or.inl rfl
  | succ n ih => exact fun ev hev e => Expr.failsWith_evaluate (failsAs_resolver hw ih hev) e

end Evaluator

/-! ## Runs -/

/-- What can happen over a cloud, in a session at whose end these caches are open: readers are told
what the cloud would reply, as to exports if their names are distinct, and what is refused is
refused in the words of the cloud. -/
def Cloud.quotingWorld (cloud : Cloud) (s : Session) : World where
  opened := s.Opened
  answers id q a := (q.kind = .exports → cloud.DistinctExports) →
    ∃ c, s.caches[id]? = some c ∧ cloud.reply c.stack c.region q = some a
  refuses id kind message := kind = .stackResources ∧
    ∃ c, s.caches[id]? = some c ∧ cloud.answer (.stackResources c.stack) = .error message

theorem Cloud.refuses_quotingWorld {cloud : Cloud} {s : Session} {id : Nat} {stack region : String}
    (ho : s.Opened id stack region) {kind : RequestKind} {message : String}
    (h : (cloud.quotingWorld s).refuses id kind message) :
    kind = .stackResources ∧ cloud.answer (.stackResources stack) = .error message := by
  obtain ⟨c, hc, rfl, -⟩ := ho
  obtain ⟨hk, c', hc', hmessage⟩ := h
  obtain rfl := Option.some.inj (hc.symm.trans hc')
  exact ⟨hk, hmessage⟩

theorem Cloud.quotes_quotingWorld {cloud : Cloud} (hd : cloud.DistinctExports) (s : Session) :
    (cloud.quotingWorld s).Quotes cloud where
  obeys := by
    intro id stack region ho q
    refine ⟨fun a ha => (cloud.obeys_world s id stack region ho q).1 a (ha fun _ => hd),
      fun message hm => ?_⟩
    obtain ⟨hq, hmessage⟩ := Cloud.refuses_quotingWorld ho hm
    cases q with
    | inventory =>
      cases hresources : cloud.inventories.get? stack with
      | none => exact hresources
      | some resources =>
        rw [Cloud.answer, hresources] at hmessage
        cases hmessage
    | urlSuffix => cases hq
    | exportNamed name => cases hq
  refuses ho _ _ h := Cloud.refuses_quotingWorld ho h

namespace Run

variable {client : Client} {log : List Event} {tasks : Multiset Task} {s : Session}

/-- What an operation has met with, none of its requests made to fail, is what the cloud says. -/
theorem admits_quoting (h : Run client log tasks s) {t : Task} (ht : t ∈ tasks) {e : Event}
    (he : e ∈ t.log) (hi : e.injected client = false) :
    (client.cloud.quotingWorld s).Admits e := by
  have hmem := h.mem_log ht e he
  cases e with
  | asked id r n => trivial
  | answered id r n a => trivial
  | refused id r n message =>
    obtain ⟨-, herr⟩ := (h.accounted t ht).refused id r n message he
    rcases h.traffic.1.refused_cases hmem with hf | ⟨c, hc, rfl, -⟩
    · exact absurd (hf.symm.trans hi) (by simp)
    · have hi : client.faults.hits .stackResources n = false := hi
      rw [Client.answer, Request.kind, hi] at herr
      exact ⟨rfl, c, hc, herr⟩
  | read id q a => exact fun hd => h.traffic.1.reply_of_read hd hmem

/-- **A failure is attributed to a part that failed.** As long as none of its requests is made to
fail, an evaluation fails as its expression does, or gives up because expressions lead to each other
without end; and it fails if its expression does, whatever was done before or is done meanwhile. -/
theorem failure_attributed (h : Run client log tasks s) (hd : client.cloud.DistinctExports)
    {ev : Evaluator} (hm : Made tasks ev) {v : Json} {r : Except Failure Json} {own : List Event}
    (ht : ⟨.evaluate ev v, .done r, own⟩ ∈ tasks)
    (hown : ∀ e ∈ own, e.injected client = false) :
    (∀ f, r = .error f → Plain.Fails client.cloud ev.stack (Expr.ofJson v) f ∨
      f = .tooDeep ∧ ∀ n, ev.GivesUp (s.met own) n (Expr.ofJson v)) ∧
    ((∃ f, Plain.Fails client.cloud ev.stack (Expr.ofJson v) f) → ∃ f, r = .error f) := by
  have hfit := h.fit hm
  constructor
  · rintro f rfl
    have hfails := Evaluator.failsWith_evaluateAt (Cloud.quotes_quotingWorld hd s)
      (ev.depth + 1) ev hfit.opened (Expr.ofJson v)
    rcases h.ensures (fun _ _ _ ho => ho) ht (fun e he => h.admits_quoting ht he (hown e he))
      hfails f rfl with rfl | hf
    · have hgives : ev.GivesUp (s.met own) (ev.depth + 1) (Expr.ofJson v) := h.canEnd ht
      exact Or.inr ⟨rfl, hgives.of_enough (Nat.le_succ_of_le hfit.deep)⟩
    · exact Or.inl hf
  · rintro ⟨f, hf⟩
    cases r with
    | ok w => exact absurd ⟨_, (h.toOption_evaluate hd ht hfit.opened hown).symm⟩ hf.not_worth
    | error f' => exact ⟨f', rfl⟩

/-- Both elements of a list fail, and the second one is noticed first: the request that the first
one has made for the resources of the stack, which is not there, is called off. -/
theorem failure_attributed_of_sibling : ∃ log tasks s ev own,
    let v : Json := .array [.object [("Ref", .string "X")], .object [("Fn::If", .array [])]]
    let f : Failure := .evaluation (.unsupportedFunction "Fn::If")
    Run ⟨{}, .none⟩ log tasks s ∧ Made tasks ev ∧ ⟨.evaluate ev v, .done (.error f), own⟩ ∈ tasks ∧
      (∃ e ∈ own, e.asks 0 .stackResources) ∧ Plain.Fails {} ev.stack (Expr.ofJson v) f := by
  let client : Client := ⟨{}, .none⟩
  let ev : Evaluator := .first []
  let v : Json := .array [.object [("Ref", .string "X")], .object [("Fn::If", .array [])]]
  let f : Failure := .evaluation (.unsupportedFunction "Fn::If")
  let s (lock : Lock) (made : Nat) : Session :=
    ⟨{ stackResources := made },
      [{ stack := "stack", region := "region", inventory := ⟨none, lock⟩ }]⟩
  let asked : Event := .asked 0 (.stackResources "stack") 1
  let opener : Task := .first []
  obtain ⟨first, next, hjob⟩ : ∃ first next, ev.evaluate v =
      .gather [.ask 0 .inventory .arriving first, .done (.error f)] next := ⟨_, _, rfl⟩
  let t (p : Phase) (own : List Event) : Task :=
    ⟨.evaluate ev v, .gather [.ask 0 .inventory p first, .done (.error f)] next, own⟩
  let failed : Task := ⟨.evaluate ev v, .done (.error f), [asked]⟩
  have h₁ : Run client [] (t .arriving [] ::ₘ opener ::ₘ 0) (s {} 0) :=
    Run.begun_as hjob (Run.first client [])
  have h₂ : Run client [asked] (t (.fetching 0 1 none) [asked] ::ₘ opener ::ₘ 0)
      (s (Lock.enter {}).2 1) :=
    .moved (.part [] [.done (.error f)]
      (@Job.Move.suspended client _ _ _ 0 .inventory .arriving (.fetching 0 1 none) _ rfl)) h₁
  have h₃ : Run client [asked] (failed ::ₘ opener ::ₘ 0) (s ((Lock.enter {}).2.leave 0) 1) :=
    .moved (@Job.Move.calledOff client _ _ [.ask 0 .inventory (.fetching 0 1 none) first] [] f next
      _ (.refl _) (Or.inl (Nat.le_add_left 2 28))) h₂
  have hfailed : failed ∈ failed ::ₘ opener ::ₘ 0 := Multiset.mem_cons_self _ _
  have hmade : Made (failed ::ₘ opener ::ₘ 0) ev :=
    .first (Multiset.mem_cons_of_mem (Multiset.mem_cons_self opener 0))
  obtain ⟨hsound, -⟩ := Run.failure_attributed h₃ .nil hmade hfailed fun e _ => not_injected e
  refine ⟨_, _, _, ev, _, h₃, hmade, hfailed, ⟨asked, List.mem_singleton_self _, rfl⟩, ?_⟩
  exact (hsound f rfl).resolve_right fun hdeep => nomatch (hdeep.1 : f = .tooDeep)

end Run

end StackExpr
