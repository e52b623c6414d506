import Mathlib.Data.List.Forall2
import StackExpr.Evaluator
import StackExpr.Proofs.NestedStack
/-!
# Jobs that are put together

An evaluator puts its jobs together from a few kinds of them. `Job.Compositional` lists the kinds:
where jobs of these kinds are related to themselves, and what is put together from related jobs in
the same way is related, **the jobs that an evaluator makes are related as soon as those are that
it leads to** (`Job.Compositional.resolver`). So what is to be shown of all evaluations is shown
once for each kind of job, and not once for each kind of expression.

A property of jobs is a relation that does not look at the second job. If it is compositional, then
all jobs that an evaluator makes have it (`Job.Compositional.evaluateAt` and what follows from it).

The relation may be one between jobs that ask certain caches only. These have to be the caches of
the evaluator, and all caches that can be opened for a stack in its tree (`Evaluator.Inside`).
-/

namespace StackExpr

variable {opened : (id : Nat) → (stack region : String) → Prop} {among : Nat → Prop}

/-! ## The caches that an evaluator asks -/

/-- The entries of the tree below an entry are entries of the tree. -/
theorem NestedStack.preorder_subset {key : String} {name : Option String} {template : Template}
    {inner : Dict NestedStack} : (ns : Dict NestedStack) →
    (key, .mk name template inner) ∈ preorder ns → preorder inner ⊆ preorder ns
  | [], h => by
    rw [preorder] at h
    exact absurd h List.not_mem_nil
  | (key', .mk name' template' inner') :: rest, h => by
    rw [preorder, List.cons_append] at h ⊢
    rcases List.mem_cons.mp h with h | h
    · cases h
      exact fun e he => List.mem_cons_of_mem _ (List.mem_append_left _ he)
    · rcases List.mem_append.mp h with h | h
      · have hsub := preorder_subset inner' h
        exact fun e he => List.mem_cons_of_mem _ (List.mem_append_left _ (hsub he))
      · have hsub := preorder_subset rest h
        exact fun e he => List.mem_cons_of_mem _ (List.mem_append_right _ (hsub he))

/-- The caches of an evaluator are among certain ones, and so are all that can be opened for a stack
in its tree. -/
structure Evaluator.Inside (opened : (id : Nat) → (stack region : String) → Prop)
    (among : Nat → Prop) (ev : Evaluator) : Prop where
  own : among ev.caches
  nested : ∀ e ∈ NestedStack.preorder ev.nested, ∀ name, e.2.physicalName = some name →
    ∀ caches, opened caches name ev.context.region → among caches

theorem Evaluator.inside_true (ev : Evaluator) : ev.Inside opened fun _ => True :=
  ⟨trivial, fun _ _ _ _ _ _ => trivial⟩

/-- The caches of an evaluator for a nested stack are among those of the whole tree. -/
theorem Evaluator.Inside.child {ev : Evaluator} (h : ev.Inside opened among) {id name : String}
    {template : Template} {inner : Dict NestedStack}
    (hf : NestedStack.find? id ev.nested = some (.mk (some name) template inner)) {caches : Nat}
    (ho : opened caches name ev.context.region) (parameters : Dict Json) :
    Evaluator.Inside opened among
      ⟨name, template, ev.context.withParameters parameters, inner, caches, ev.depth⟩ := by
  have hmem := NestedStack.mem_preorder_of_find? hf
  refine ⟨h.nested _ hmem name rfl caches ho, fun e he => ?_⟩
  exact h.nested e (NestedStack.preorder_subset _ hmem he)

/-! ## Kinds of jobs -/

namespace Job

/-- One job after the other, in whatever way they are put together. -/
theorem bind_bind {α β γ : Type} {f : α → Job β} {g : β → Job γ} : (job : Job α) →
    (job.bind f).bind g = job.bind fun a => (f a).bind g
  | .done (.ok _) => rfl
  | .done (.error _) => rfl
  | .openStack _ _ next => congrArg _ (funext fun id => bind_bind (next id))
  | .ask _ _ _ next => congrArg _ (funext fun a => bind_bind (next a))
  | .gather _ next => congrArg _ (funext fun vs => bind_bind (next vs))
  | .attempt _ next => congrArg _ (funext fun r => bind_bind (next r))

theorem bind_pure {α : Type} : (job : Job α) → job.bind pure = job
  | .done (.ok _) => rfl
  | .done (.error _) => rfl
  | .openStack _ _ next => congrArg _ (funext fun id => bind_pure (next id))
  | .ask _ _ _ next => congrArg _ (funext fun a => bind_pure (next a))
  | .gather _ next => congrArg _ (funext fun vs => bind_pure (next vs))
  | .attempt _ next => congrArg _ (funext fun r => bind_pure (next r))

/-- A relation between jobs that holds of what is put together in the same way from jobs between
which it holds. -/
structure Compositional (opened : (id : Nat) → (stack region : String) → Prop) (among : Nat → Prop)
    (R : (α : Type) → Job α → Job α → Prop) : Prop where
  done : ∀ {α : Type} (r : Except Failure α), (∀ message, r ≠ .error (.client message)) →
    R α (.done r) (.done r)
  openStack : ∀ {α : Type} {stack region : String} {next next' : Nat → Job α},
    (∀ id, opened id stack region → R α (next id) (next' id)) →
    R α (.openStack stack region next) (.openStack stack region next')
  query : ∀ {id : Nat} (q : Query), among id → R q.Answer (Job.query id q) (Job.query id q)
  all : ∀ {parts parts' : List (Job Json)}, List.Forall₂ (R Json) parts parts' →
    R (List Json) (Job.all parts) (Job.all parts')
  outcome : ∀ {part part' : Job Json}, R Json part part' →
    R (Except EvalError Json) (Job.outcome part) (Job.outcome part')
  bind : ∀ {α β : Type} {job job' : Job α} {f f' : α → Job β}, R α job job' →
    (∀ a, R β (f a) (f' a)) → R β (job.bind f) (job'.bind f')

/-- What holds along two lists and is about the first one only holds of all its elements. -/
theorem forall_of_forall₂ {α β : Type*} {P : α → Prop} {l : List α} {l' : List β}
    (h : List.Forall₂ (fun a _ => P a) l l') : ∀ a ∈ l, P a := by
  induction h with
  | nil => simp
  | cons hP _ ih => exact List.forall_mem_cons.mpr ⟨hP, ih⟩

namespace Compositional

variable {R : (α : Type) → Job α → Job α → Prop} (hR : Compositional opened among R) {α : Type}
include hR

theorem pure (a : α) : R α (Pure.pure a) (Pure.pure a) := hR.done (.ok a) (by simp)

theorem fail (e : EvalError) : R α (Job.fail e) (Job.fail e) := hR.done _ (by simp)

theorem ofExcept (r : Except EvalError α) : R α (Job.ofExcept r) (Job.ofExcept r) := by
  cases r with
  | ok a => exact hR.pure a
  | error e => exact hR.fail e

theorem ofOption (e : EvalError) (a : Option α) : R α (Job.ofOption e a) (Job.ofOption e a) := by
  cases a with
  | some a => exact hR.pure a
  | none => exact hR.fail e

end Compositional

end Job

open Job

/-! ## Expressions -/

/-- What names, attributes and exports stand for is related. -/
structure Resolver.Related (R : (α : Type) → Job α → Job α → Prop) (r r' : Resolver) : Prop where
  ref : ∀ id, R Json (r.ref id) (r'.ref id)
  getAtt : ∀ id attr, R Json (r.getAtt id attr) (r'.getAtt id attr)
  importValue : ∀ name, R Json (r.importValue name) (r'.importValue name)

theorem substitute_placeholder (r : Resolver) (vars : Dict Json) (name : String)
    (segments : List Sub.Segment) : substitute r vars (.placeholder name :: segments)
      = ((vars.get? name).elim (r.target (.ofPlaceholder name)) pure).bind fun v =>
        (Job.ofExcept (substituted name v)).bind fun text =>
          (substitute r vars segments).bind fun rest => pure (text ++ rest) := by
  rw [substitute]
  cases vars.get? name <;> rfl

theorem Resolver.Related.target {R : (α : Type) → Job α → Job α → Prop} {r r' : Resolver}
    (hr : r.Related R r') (t : Sub.Target) : R Json (r.target t) (r'.target t) := by
  cases t with
  | ref id => exact hr.ref id
  | getAtt id attr => exact hr.getAtt id attr

namespace Job.Compositional

variable {R : (α : Type) → Job α → Job α → Prop} {r r' : Resolver}

theorem substitute (hR : Compositional opened among R) (hr : r.Related R r') (vars : Dict Json) :
    (segments : List Sub.Segment) →
    R String (StackExpr.substitute r vars segments) (StackExpr.substitute r' vars segments)
  | [] => hR.pure _
  | .literal _ :: segments => hR.bind (substitute hR hr vars segments) fun _ => hR.pure _
  | .placeholder name :: segments => by
    rw [substitute_placeholder, substitute_placeholder]
    have htarget : R Json ((vars.get? name).elim (r.target (.ofPlaceholder name)) Pure.pure)
        ((vars.get? name).elim (r'.target (.ofPlaceholder name)) Pure.pure) := by
      cases vars.get? name with
      | some v => exact hR.pure v
      | none => exact hr.target _
    refine hR.bind htarget fun v => hR.bind (hR.ofExcept _) fun text => ?_
    exact hR.bind (substitute hR hr vars segments) fun _ => hR.pure _

mutual

/-- The jobs for an expression are related if those are for what it refers to. -/
theorem evaluate (hR : Compositional opened among R) (hr : r.Related R r') :
    (e : Expr) → R Json (e.evaluate r) (e.evaluate r')
  | .scalar v => hR.pure v
  | .list elements => hR.bind (hR.all (evaluateParts hR hr elements)) fun _ => hR.pure _
  | .record fields => hR.bind (evaluateFields hR hr fields) fun _ => hR.pure _
  | .ref id => hr.ref id
  | .getAtt id => hr.getAtt id none
  | .getAttOf id attr =>
    hR.bind (evaluate hR hr attr) fun _ => hR.bind (hR.ofExcept _) fun _ => hr.getAtt id _
  | .join _ items =>
    hR.bind (evaluate hR hr items) fun _ => hR.bind (hR.ofExcept _) fun _ => hR.ofExcept _
  | .split _ text =>
    hR.bind (evaluate hR hr text) fun _ => hR.bind (hR.ofExcept _) fun _ => hR.pure _
  | .select index items =>
    hR.bind (evaluate hR hr index) fun _ => hR.bind (hR.ofExcept _) fun _ =>
      hR.bind (evaluate hR hr items) fun _ => hR.bind (hR.ofExcept _) fun _ => hR.ofExcept _
  | .sub _ => hR.bind (substitute hR hr _ _) fun _ => hR.pure _
  | .subWith _ bindings =>
    hR.bind (evaluate hR hr bindings) fun _ => hR.bind (hR.ofExcept _) fun _ =>
      hR.bind (substitute hR hr _ _) fun _ => hR.pure _
  | .importValue name =>
    hR.bind (evaluate hR hr name) fun _ => hR.bind (hR.ofExcept _) fun _ => hr.importValue _
  | .invalid _ => hR.fail _

theorem evaluateParts (hR : Compositional opened among R) (hr : r.Related R r') :
    (es : List Expr) →
    List.Forall₂ (R Json) (Expr.evaluateParts r es) (Expr.evaluateParts r' es)
  | [] => .nil
  | e :: es => .cons (evaluate hR hr e) (evaluateParts hR hr es)

theorem evaluateFields (hR : Compositional opened among R) (hr : r.Related R r') :
    (fields : List (String × Expr)) →
    R (List (String × Json)) (Expr.evaluateFields r fields) (Expr.evaluateFields r' fields)
  | [] => hR.pure _
  | (_, e) :: fields =>
    hR.bind (evaluate hR hr e) fun _ => hR.bind (evaluateFields hR hr fields) fun _ => hR.pure _

end

end Job.Compositional

/-! ## Evaluators -/

namespace Evaluator

/-- An evaluator is one for a stack in the tree of another evaluator. -/
def NestedIn (child ev : Evaluator) : Prop :=
  ∃ id name, NestedStack.find? id ev.nested = some (.mk (some name) child.template child.nested)

/-- What the expressions in a stack can lead to is related: the outputs of the stack, the parameters
of the stacks nested in it, and whatever is evaluated in these. -/
structure LeadsAlike (opened : (id : Nat) → (stack region : String) → Prop) (among : Nat → Prop)
    (R : (α : Type) → Job α → Job α → Prop) (evaluate evaluate' : Evaluate) (ev : Evaluator) :
    Prop where
  output : ∀ output value, ev.template.outputValue? output = some value →
    R Json (evaluate ev (Expr.ofJson value)) (evaluate' ev (Expr.ofJson value))
  parameters : ∀ id d parameters, NestedStack.find? id ev.nested = some d →
    ev.template.property? id "Parameters" = some parameters →
    R Json (evaluate ev (Expr.ofJson parameters)) (evaluate' ev (Expr.ofJson parameters))
  nested : ∀ child : Evaluator, child.Inside opened among → child.NestedIn ev →
    ∀ e, R Json (evaluate child e) (evaluate' child e)

/-- Where all evaluations are related, so is what the expressions in a stack can lead to. -/
theorem Inside.leadsAlike {R : (α : Type) → Job α → Job α → Prop} {evaluate evaluate' : Evaluate}
    {ev : Evaluator} (hev : ev.Inside opened among)
    (he : ∀ ev : Evaluator, ev.Inside opened among →
      ∀ e, R Json (evaluate ev e) (evaluate' ev e)) :
    ev.LeadsAlike opened among R evaluate evaluate' where
  output _ _ _ := he ev hev _
  parameters _ _ _ _ _ := he ev hev _
  nested child hchild _ := he child hchild

end Evaluator

namespace Job.Compositional

section Evaluator

variable {R : (α : Type) → Job α → Job α → Prop} (hR : Compositional opened among R)
  {ev : Evaluator} (hev : ev.Inside opened among)
include hR hev

theorem deployed? (id : String) : R (Option StackResource) (ev.deployed? id) (ev.deployed? id) :=
  hR.bind (hR.query .inventory hev.own) fun _ => hR.pure _

theorem physicalName? (id : String) :
    R (Option String) (ev.physicalName? id) (ev.physicalName? id) :=
  hR.bind (hR.deployed? hev id) fun _ => hR.pure _

theorem logicalId? (name : String) : R (Option String) (ev.logicalId? name) (ev.logicalId? name) :=
  hR.bind (hR.query .inventory hev.own) fun _ => hR.pure _

section Evaluate

variable {evaluate evaluate' : Evaluate} (he : ev.LeadsAlike opened among R evaluate evaluate')
include he

/-- Whatever is done with the evaluator for a nested stack: it asks only caches of the tree. -/
theorem nestedEvaluator_bind {β : Type} {f f' : Option Evaluator → Job β}
    (hf : ∀ child : Option Evaluator, (∀ c ∈ child, c.Inside opened among ∧ c.NestedIn ev) →
      R β (f child) (f' child)) (id : String) :
    R β ((Evaluator.nestedEvaluator? evaluate ev id).bind f)
      ((Evaluator.nestedEvaluator? evaluate' ev id).bind f') := by
  have hnone : R β (f none) (f' none) := hf none (by simp)
  unfold Evaluator.nestedEvaluator?
  split
  · next name template inner hfound =>
    have hparameters : R (Dict Json) (Evaluator.nestedParameters evaluate ev id)
        (Evaluator.nestedParameters evaluate' ev id) := by
      unfold Evaluator.nestedParameters
      cases hp : ev.template.property? id "Parameters" with
      | none => exact hR.pure _
      | some parameters =>
        refine hR.bind (he.parameters id _ parameters hfound hp) fun v => ?_
        split
        · exact hR.pure _
        · exact hR.fail _
    show R β ((Job.bind _ _).bind f) ((Job.bind _ _).bind f')
    rw [bind_bind, bind_bind]
    refine hR.bind hparameters fun parameters => hR.openStack fun caches ho => hf (some _) ?_
    rintro c ⟨⟩
    exact ⟨hev.child hfound ho parameters, id, name, hfound⟩
  · exact hnone

theorem nestedOutput? (id output : String) : R (Option Json)
    (Evaluator.nestedOutput? evaluate ev id output)
    (Evaluator.nestedOutput? evaluate' ev id output) := by
  refine hR.nestedEvaluator_bind hev he (fun child hc => ?_) id
  cases child with
  | none => exact hR.pure _
  | some child =>
    obtain ⟨hchild, hnested⟩ := hc child rfl
    exact hR.bind (he.nested child hchild hnested _) fun _ => hR.pure _

theorem attribute? (id : String) (attr : Option String) : R (Option Json)
    (Evaluator.attribute? evaluate ev id attr) (Evaluator.attribute? evaluate' ev id attr) := by
  unfold Evaluator.attribute?
  split
  · next output =>
    cases hv : ev.template.outputValue? output with
    | none => exact hR.pure _
    | some value => exact hR.bind (he.output output value hv) fun _ => hR.pure _
  · refine hR.bind (hR.deployed? hev _) fun resource => ?_
    split
    · exact hR.pure _
    · dsimp only
      split
      · exact hR.nestedOutput? hev he _ _
      · exact hR.pure _
      · exact hR.bind (hR.ofExcept _) fun _ => hR.pure _

/-- **What names, attributes and exports stand for is related as soon as what they lead to is.** -/
theorem resolver : (ev.resolver evaluate).Related R (ev.resolver evaluate') where
  ref id := by
    refine hR.bind ?_ fun _ => hR.ofOption _ _
    unfold Evaluator.ref?
    split
    · exact hR.bind (hR.query .urlSuffix hev.own) fun _ => hR.pure _
    · split
      · exact hR.pure _
      · exact hR.pure _
      · exact hR.attribute? hev he id none
  getAtt id attr := hR.bind (hR.attribute? hev he id attr) fun _ => hR.ofOption _ _
  importValue name := by
    refine hR.bind (hR.query (.exportNamed name) hev.own) fun found => ?_
    split
    · exact hR.fail _
    · exact hR.fail _
    · exact hR.pure _

end Evaluate

omit hev in
/-- **The job for an expression is related to itself**, however deep the expression may lead. -/
theorem evaluateAt (n : Nat) : ∀ ev : Evaluator, ev.Inside opened among →
    ∀ e, R Json (Evaluator.evaluateAt n ev e) (Evaluator.evaluateAt n ev e) := by
  induction n with
  | zero => exact fun _ _ _ => hR.done _ (by simp)
  | succ n ih => exact fun ev hev e => hR.evaluate (hR.resolver hev (hev.leadsAlike ih)) e

theorem child? (id : String) : R (Option Evaluator) (ev.child? id) (ev.child? id) := by
  rw [← bind_pure (ev.child? id)]
  exact hR.nestedEvaluator_bind hev (hev.leadsAlike (hR.evaluateAt (ev.depth + 1)))
    (fun _ _ => hR.pure _) id

theorem getAttTarget? (id : String) (attr : Option String) :
    R (Option Json) (ev.getAttTarget? id attr) (ev.getAttTarget? id attr) :=
  hR.attribute? hev (hev.leadsAlike (hR.evaluateAt (ev.depth + 1))) id attr

theorem establishPhysicalName? (id : String) (name : Option Json) :
    R (Option String) (ev.establishPhysicalName? id name) (ev.establishPhysicalName? id name) := by
  unfold Evaluator.establishPhysicalName?
  split
  · exact hR.physicalName? hev id
  · refine hR.bind (hR.outcome (hR.evaluateAt _ ev hev _)) fun r => ?_
    split
    · exact hR.physicalName? hev id
    · exact hR.physicalName? hev id
    · split
      · exact hR.pure _
      · exact hR.physicalName? hev id

end Evaluator

end Job.Compositional

end StackExpr
