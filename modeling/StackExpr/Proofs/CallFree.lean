import StackExpr.Expr.Evaluate
import StackExpr.Proofs.Job.Offline
/-!
# Values without calls

A value is `CallFree` if no object in it, at any depth, is a call. An object with several keys is no
call, whatever they are.

* **Such a value is its own value**: the job that evaluates it comes to it on its own
  (`Expr.offline?_evaluate_ofJson`)
* The expression of any value is `Recognised`: what an evaluation takes over from it holds no calls
  (`Expr.recognised_ofJson`)
-/

namespace StackExpr

/-- An object with these keys is a call. -/
def Function.isCall : List String → Bool
  | [name] => isCallName name
  | _ => false

namespace Json

mutual

/-- No object in the value is a call. -/
def CallFree : Json → Prop
  | .array elements => CallFreeElements elements
  | .object fields => Function.isCall (fields.map Prod.fst) = false ∧ CallFreeFields fields
  | _ => True

/-- No object in the elements is a call. -/
def CallFreeElements : List Json → Prop
  | [] => True
  | e :: es => e.CallFree ∧ CallFreeElements es

/-- No object in the fields' values is a call. -/
def CallFreeFields : List (String × Json) → Prop
  | [] => True
  | (_, v) :: fs => v.CallFree ∧ CallFreeFields fs

end

theorem callFreeElements_iff {vs : List Json} : CallFreeElements vs ↔ ∀ v ∈ vs, v.CallFree := by
  induction vs with
  | nil => simp [CallFreeElements]
  | cons v vs ih => simp [CallFreeElements, ih]

theorem callFreeFields_iff {fs : List (String × Json)} :
    CallFreeFields fs ↔ ∀ f ∈ fs, f.2.CallFree := by
  induction fs with
  | nil => simp [CallFreeFields]
  | cons f fs ih => simp [CallFreeFields, ih]

end Json

namespace Expr

/-! ## Expressions of values -/

/-- The expression of an object that is no call. -/
theorem ofJson_object : {fields : Dict Json} → Function.isCall (fields.map Prod.fst) = false →
    ofJson (.object fields) = .record (ofFields fields)
  | [], _ => rfl
  | [(name, _)], h => by
    have hname : Function.isCallName name = false := h
    rw [ofJson, hname]
    rfl
  | _ :: _ :: _, _ => rfl

/-! ## Values without calls -/

mutual

/-- **A value without calls is evaluated to itself.** -/
theorem offline?_evaluate_ofJson (r : Resolver) : (v : Json) → v.CallFree →
    ((ofJson v).evaluate r).offline? = some (.ok v)
  | .null, _ => rfl
  | .bool _, _ => rfl
  | .number _, _ => rfl
  | .string _, _ => rfl
  | .array elements, h => by
    show ((Job.all (evaluateParts r (ofElements elements))).bind _).offline? = _
    rw [Job.offline?_bind, Job.offline?_all, offlineAll?_evaluateParts r elements h]
    rfl
  | .object fields, h => by
    rw [ofJson_object h.1]
    show ((evaluateFields r (ofFields fields)).bind _).offline? = _
    rw [Job.offline?_bind, offline?_evaluateFields r fields h.2]
    rfl

theorem offlineAll?_evaluateParts (r : Resolver) : (vs : List Json) → Json.CallFreeElements vs →
    Job.offlineAll? (evaluateParts r (ofElements vs)) = some (.ok vs)
  | [], _ => rfl
  | v :: vs, h => by
    rw [ofElements, evaluateParts, Job.offlineAll?, offline?_evaluate_ofJson r v h.1,
      offlineAll?_evaluateParts r vs h.2]
    rfl

theorem offline?_evaluateFields (r : Resolver) : (fs : Dict Json) → Json.CallFreeFields fs →
    (evaluateFields r (ofFields fs)).offline? = some (.ok fs)
  | [], _ => rfl
  | (k, v) :: fs, h => by
    show (((ofJson v).evaluate r).bind fun v =>
      (evaluateFields r (ofFields fs)).bind fun rest => pure ((k, v) :: rest)).offline? = _
    rw [Job.offline?_bind, offline?_evaluate_ofJson r v h.1]
    show ((evaluateFields r (ofFields fs)).bind _).offline? = _
    rw [Job.offline?_bind, offline?_evaluateFields r fs h.2]
    rfl

end

/-! ## Expressions in which calls are recognised -/

mutual

/-- What an evaluation takes over from the expression holds no calls. -/
def Recognised : Expr → Prop
  | scalar v => v.CallFree
  | list elements => RecognisedAll elements
  | record fields => Function.isCall (fields.map Prod.fst) = false ∧ RecognisedFields fields
  | select _ items => Recognised items
  | _ => True

/-- What an evaluation takes over from the elements holds no calls. -/
def RecognisedAll : List Expr → Prop
  | [] => True
  | e :: es => Recognised e ∧ RecognisedAll es

/-- What an evaluation takes over from the fields holds no calls. -/
def RecognisedFields : List (String × Expr) → Prop
  | [] => True
  | (_, e) :: fs => Recognised e ∧ RecognisedFields fs

end

theorem recognisedAll_iff {es : List Expr} : RecognisedAll es ↔ ∀ e ∈ es, e.Recognised := by
  induction es with
  | nil => simp [RecognisedAll]
  | cons e es ih => simp [RecognisedAll, ih]

theorem recognised_arguments {v : Json} {e : Expr} (h : e.Recognised) :
    ∀ a ∈ arguments v e, a.2.Recognised := by
  unfold arguments
  split
  · exact fun a ha => recognisedAll_iff.mp h _ (List.of_mem_zip ha).2
  · exact List.forall_mem_singleton.mpr h

theorem recognised_call (f : Function) {args : List (Json × Expr)}
    (h : ∀ a ∈ args, a.2.Recognised) : (call f args).Recognised := by
  unfold call
  split
  -- Of all that a call is given, only what an element is selected from can be taken over.
  case h_6 => exact h _ (List.mem_cons_of_mem _ List.mem_cons_self)
  all_goals trivial

theorem recognised_callNamed (name : String) {args : List (Json × Expr)}
    (h : ∀ a ∈ args, a.2.Recognised) : (callNamed name args).Recognised := by
  unfold callNamed
  split
  · exact recognised_call _ h
  · trivial

mutual

/-- **The expression of a value is recognised.** -/
theorem recognised_ofJson : (v : Json) → (ofJson v).Recognised
  | .null => trivial
  | .bool _ => trivial
  | .number _ => trivial
  | .string _ => trivial
  | .array elements => recognised_ofElements elements
  | .object [] => ⟨rfl, trivial⟩
  | .object [(name, value)] => by
    have hvalue := recognised_ofJson value
    rw [ofJson]
    split
    · exact recognised_callNamed name (recognised_arguments hvalue)
    · next hname => exact ⟨eq_false_of_ne_true hname, hvalue, trivial⟩
  | .object (f :: f' :: fs) => ⟨rfl, recognised_ofFields (f :: f' :: fs)⟩

theorem recognised_ofElements : (vs : List Json) → RecognisedAll (ofElements vs)
  | [] => trivial
  | v :: vs => ⟨recognised_ofJson v, recognised_ofElements vs⟩

theorem recognised_ofFields : (fs : Dict Json) → RecognisedFields (ofFields fs)
  | [] => trivial
  | (_, v) :: fs => ⟨recognised_ofJson v, recognised_ofFields fs⟩

end

end Expr

end StackExpr
