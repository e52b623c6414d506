import StackExpr.Proofs.Job.Ensures
import StackExpr.Proofs.Job.Compositional
import StackExpr.Proofs.Plain
/-!
# What a job yields

A job *yields* a result if it can only end with it: with that value, or, where there is none, with a
failure. Where names, attributes and exports yield what they are worth (`Resolver.Yields`), **every
expression yields its plain value** (`Expr.yields_evaluate`). The proof follows the expression. Only
lists need more than the rule for one job after the other: their elements run side by side, and the
failure that ends a list need not be the one that is found first in order.
-/

namespace StackExpr

namespace Job

variable {α β : Type} {w : World}

/-- The job can only end with this value, or only fail if there is none. -/
def Yields (w : World) (job : Job α) (o : Option α) : Prop :=
  job.Ensures w fun r => r.toOption = o

theorem yields_pure (a : α) : (pure a : Job α).Yields w (some a) := rfl

theorem yields_fail (e : EvalError) : (fail e : Job α).Yields w none := rfl

theorem yields_ofExcept (r : Except EvalError α) : (ofExcept r).Yields w r.toOption := by
  cases r <;> rfl

theorem yields_ofOption (e : EvalError) (o : Option α) : (ofOption e o).Yields w o := by
  cases o <;> rfl

theorem yields_bind {f : α → Job β} {g : α → Option β} {job : Job α} {o : Option α}
    (h : job.Yields w o) (hf : ∀ a, o = some a → (f a).Yields w (g a)) :
    (job.bind f).Yields w (o.bind g) := by
  refine ensures_bind (fun a ha => ?_) (fun e he => ?_) h
  · have ha : o = some a := ha.symm
    have := hf a ha
    rwa [Yields, ha] at *
  · have he : o = none := he.symm
    rw [he]
    rfl

end Job

open Job

/-! ## Expressions -/

/-- A resolver yields what names, attributes and exports are worth. -/
structure Resolver.Yields (w : World) (r : Resolver) (m : Plain.Meaning) : Prop where
  ref : ∀ id, (r.ref id).Yields w (m.ref id)
  getAtt : ∀ id attr, (r.getAtt id attr).Yields w (m.getAtt id attr)
  importValue : ∀ name, (r.importValue name).Yields w (m.importValue name)

section Expr

variable {w : World} {r : Resolver} {m : Plain.Meaning}

theorem Resolver.Yields.target (hr : r.Yields w m) (t : Sub.Target) :
    (r.target t).Yields w (m.target t) := by
  cases t with
  | ref id => exact hr.ref id
  | getAtt id attr => exact hr.getAtt id attr

theorem yields_substitute (hr : r.Yields w m) (vars : Dict Json) : (segments : List Sub.Segment) →
    (substitute r vars segments).Yields w (Plain.substitute m vars segments)
  | [] => yields_pure _
  | .literal _ :: segments =>
    yields_bind (yields_substitute hr vars segments) fun _ _ => yields_pure _
  | .placeholder name :: segments => by
    rw [substitute_placeholder]
    have htarget : ((vars.get? name).elim (r.target (.ofPlaceholder name)) pure).Yields w
        ((vars.get? name).elim (m.target (.ofPlaceholder name)) some) := by
      cases vars.get? name with
      | some v => exact yields_pure v
      | none => exact hr.target _
    refine yields_bind htarget fun v _ => yields_bind (yields_ofExcept _) fun text _ => ?_
    exact yields_bind (yields_substitute hr vars segments) fun _ _ => yields_pure _

/-- Parts that run side by side yield their values in order. -/
theorem yields_all {es : List Expr} {parts : List (Job Json)}
    (h : List.Forall₂ (fun part e => part.Yields w (Plain.value m e)) parts es) :
    (all parts).Yields w (Plain.values m es) := by
  have hp : List.Forall₂ (Ensures w) parts
      (es.map fun e (r : Except Failure Json) => r.toOption = Plain.value m e) := by
    rw [List.forall₂_map_right_iff]
    exact h
  refine ensures_all hp (fun vs hvs => ?_) fun before P after e hPs hP _ => ?_
  · rw [List.forall₂_map_left_iff] at hvs
    exact (Plain.values_eq_some (hvs.imp fun e v hv => hv.symm)).symm
  · obtain ⟨e', he', rfl⟩ := List.mem_map.mp
      (hPs ▸ List.mem_append_right before List.mem_cons_self : P ∈ es.map _)
    exact (Plain.values_eq_none he' hP.symm).symm

mutual

/-- **An expression yields its plain value.** -/
theorem Expr.yields_evaluate (hr : r.Yields w m) :
    (e : Expr) → (e.evaluate r).Yields w (Plain.value m e)
  | .scalar v => yields_pure v
  | .list elements =>
    yields_bind (yields_all (Expr.yields_evaluateParts hr elements)) fun _ _ => yields_pure _
  | .record fields =>
    yields_bind (Expr.yields_evaluateFields hr fields) fun _ _ => yields_pure _
  | .ref id => hr.ref id
  | .getAtt id => hr.getAtt id none
  | .getAttOf id attr =>
    yields_bind (Expr.yields_evaluate hr attr) fun _ _ =>
      yields_bind (yields_ofExcept _) fun _ _ => hr.getAtt id _
  | .join _ items =>
    yields_bind (Expr.yields_evaluate hr items) fun _ _ =>
      yields_bind (yields_ofExcept _) fun _ _ => yields_ofExcept _
  | .split _ text =>
    yields_bind (Expr.yields_evaluate hr text) fun _ _ =>
      yields_bind (yields_ofExcept _) fun _ _ => yields_pure _
  | .select index items =>
    yields_bind (Expr.yields_evaluate hr index) fun _ _ =>
      yields_bind (yields_ofExcept _) fun _ _ =>
        yields_bind (Expr.yields_evaluate hr items) fun _ _ =>
          yields_bind (yields_ofExcept _) fun _ _ => yields_ofExcept _
  | .sub _ => yields_bind (yields_substitute hr _ _) fun _ _ => yields_pure _
  | .subWith _ bindings =>
    yields_bind (Expr.yields_evaluate hr bindings) fun _ _ =>
      yields_bind (yields_ofExcept _) fun _ _ =>
        yields_bind (yields_substitute hr _ _) fun _ _ => yields_pure _
  | .importValue name =>
    yields_bind (Expr.yields_evaluate hr name) fun _ _ =>
      yields_bind (yields_ofExcept _) fun _ _ => hr.importValue _
  | .invalid e => yields_fail e

theorem Expr.yields_evaluateParts (hr : r.Yields w m) : (es : List Expr) →
    List.Forall₂ (fun part e => part.Yields w (Plain.value m e)) (Expr.evaluateParts r es) es
  | [] => .nil
  | e :: es => .cons (Expr.yields_evaluate hr e) (Expr.yields_evaluateParts hr es)

theorem Expr.yields_evaluateFields (hr : r.Yields w m) : (fields : List (String × Expr)) →
    (Expr.evaluateFields r fields).Yields w (Plain.fieldValues m fields)
  | [] => yields_pure _
  | (_, e) :: fields =>
    yields_bind (Expr.yields_evaluate hr e) fun _ _ =>
      yields_bind (Expr.yields_evaluateFields hr fields) fun _ _ => yields_pure _

end

end Expr

end StackExpr
