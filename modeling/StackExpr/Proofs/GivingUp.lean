import StackExpr.Proofs.Evaluators
import StackExpr.Proofs.Job.Follows
import StackExpr.Proofs.Plain.Depth
/-!
# Evaluations that give up

An evaluation gives up where more expressions lead to each other than its depth allows. With less
depth it gives up all the more (`Evaluator.GivesUp.of_succ`). But the depth of an evaluator is
enough: **an evaluation that may give up within this depth may give up within any depth**
(`Evaluator.GivesUp.of_enough`). So whoever gives up has come upon expressions that lead to each
other without end.

As for plain values, this is counted: from one depth to the next either one more of the stack's own
expressions does not give up any more, or none does, and then none ever will.
-/

namespace StackExpr.Evaluator

open Job

variable {w : World} {n : Nat} {ev : Evaluator} {e : Expr}

/-- The evaluation of an expression may give up within a depth. -/
def GivesUp (w : World) (n : Nat) (ev : Evaluator) (e : Expr) : Prop :=
  (evaluateAt n ev e).CanEnd w (.error .tooDeep)

/-! ## One more depth -/

/-- Evaluations within two depths are put together in the same way. -/
theorem follows_succ {first second : Prop} {m : Nat}
    (h : ev.LeadsAlike w.opened (fun _ => True) (fun _ => Follows w first second) (evaluateAt n)
      (evaluateAt m)) (e : Expr) :
    (evaluateAt (n + 1) ev e).Follows w first second (evaluateAt (m + 1) ev e) :=
  have hR := follows_compositional w (fun _ => True) first second
  hR.evaluate (hR.resolver ev.inside_true h) e

/-- With more depth an evaluation ends in the same way, or it could give up with less. -/
theorem follows_deeper (w : World) (n : Nat) : ∀ ev e,
    (evaluateAt n ev e).Follows w True False (evaluateAt (n + 1) ev e) := by
  induction n with
  | zero => exact fun ev e Q hQ => ensures_true _ fun _ => Or.inr (Or.inl ⟨trivial, hQ⟩)
  | succ n ih => exact fun ev e => follows_succ (ev.inside_true.leadsAlike fun ev _ => ih ev) e

/-- With less depth an evaluation ends in the same way, or it gives up. -/
theorem follows_shallower (w : World) (n : Nat) : ∀ ev e,
    (evaluateAt (n + 1) ev e).Follows w False True (evaluateAt n ev e) := by
  induction n with
  | zero => exact fun ev e Q _ => Or.inr (Or.inr ⟨trivial, rfl⟩)
  | succ n ih => exact fun ev e => follows_succ (ev.inside_true.leadsAlike fun ev _ => ih ev) e

/-- Who may give up may give up with less depth. -/
theorem GivesUp.of_succ (h : GivesUp w (n + 1) ev e) : GivesUp w n ev e := by
  intro Q hQ
  rcases h _ (follows_deeper w n ev e Q hQ) with hQ | ⟨-, hQ⟩ | ⟨hf, -⟩
  · exact hQ
  · exact hQ
  · exact hf.elim

theorem GivesUp.of_le {m : Nat} (hm : m ≤ n) (h : GivesUp w n ev e) : GivesUp w m ev e := by
  induction n, hm using Nat.le_induction with
  | base => exact h
  | succ n _ ih => exact ih h.of_succ

/-! ## Enough depth -/

/-- An expression that may give up may give up with one more depth. -/
def Still (w : World) (n : Nat) (ev : Evaluator) (e : Expr) : Prop :=
  GivesUp w n ev e → GivesUp w (n + 1) ev e

/-- Where giving up stays, all results stay. -/
theorem Still.follows (h : Still w n ev e) :
    (evaluateAt (n + 1) ev e).Follows w False False (evaluateAt n ev e) := by
  intro Q hQ
  refine (ensures_canEnd _).mono fun r hr => Or.inl ?_
  rcases hr _ (follows_shallower w n ev e Q hQ) with hQ | ⟨hf, -⟩ | ⟨-, rfl⟩
  · exact hQ
  · exact hf.elim
  · exact h hr Q hQ

/-- Where giving up stays in the stack's own expressions and in the nested stacks, it stays. -/
theorem still_succ (hitems : ∀ e ∈ Plain.items ev.stack, Still w n ev e)
    (hnested : ∀ child : Evaluator, Plain.Nested ev.stack child.stack →
      ∀ e, Still w n child e) (e : Expr) : Still w (n + 1) ev e := by
  have halike : ev.LeadsAlike w.opened (fun _ => True) (fun _ => Follows w False False)
      (evaluateAt (n + 1)) (evaluateAt n) :=
    { output := fun _ _ hv => (hitems _ (Plain.mem_items_of_output hv)).follows
      parameters := fun _ _ _ hf hp => (hitems _ (Plain.mem_items_of_parameters hf hp)).follows
      nested := fun child _ hchild e => (hnested child hchild e).follows }
  intro h Q hQ
  rcases h _ (follows_succ halike e Q hQ) with hQ | ⟨hf, -⟩ | ⟨hf, -⟩
  · exact hQ
  · exact hf.elim
  · exact hf.elim

/-- Giving up stays in the stack's own expressions before all could have stopped giving up. -/
theorem exists_still (w : World) (ev : Evaluator) (start : Nat) :
    ∃ k ≤ (Plain.items ev.stack).length, ∀ e ∈ Plain.items ev.stack, Still w (start + k) ev e := by
  obtain ⟨k, hk, hs⟩ := Plain.exists_standstill (Plain.items ev.stack)
    (fun n e (he : ¬ GivesUp w n ev e) => mt GivesUp.of_succ he) start
  exact ⟨k, hk, fun e he => not_imp_not.mp (hs e he)⟩

/-- **Who may give up within enough depth may give up within any depth.** -/
theorem GivesUp.of_enough (hn : Plain.enough ev.stack ≤ n) (h : GivesUp w n ev e) (m : Nat) :
    GivesUp w m ev e := by
  rcases Nat.le_total m n with hm | hm
  · exact h.of_le hm
  · induction m, hm using Nat.le_induction with
    | base => exact h
    | succ m hm ih =>
      exact Plain.still_of_enough stack (exists_still w)
        (fun n ev hitems hnested => still_succ hitems hnested) ev m (hn.trans hm) e ih

end StackExpr.Evaluator
