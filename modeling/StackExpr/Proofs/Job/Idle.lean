import StackExpr.Proofs.Job.Compositional
import StackExpr.Proofs.Job.Move
/-!
# Jobs that have not begun

A job for an evaluation begins when it is run, not when it is made: none of its readers has begun.
`Job.Idle` says so, and it says the same of everything the job goes on with. **This is
compositional** (`Job.idle_compositional`), so all jobs that an evaluator makes are idle.
-/

namespace StackExpr

namespace Job

variable {α β : Type}

theorem idle_done (r : Except Failure α) : (done r).Idle :=
  ⟨trivial, fun r hr => absurd hr (Multiset.notMem_zero r)⟩

theorem idle_openStack {stack region : String} {next : Nat → Job α} (h : ∀ id, (next id).Idle) :
    (openStack stack region next).Idle :=
  ⟨h, fun r hr => absurd hr (Multiset.notMem_zero r)⟩

theorem idle_ask {id : Nat} {q : Query} {next : q.Answer → Job α} (h : ∀ a, (next a).Idle) :
    (ask id q .arriving next).Idle := by
  refine ⟨h, fun r hr => ?_⟩
  rw [Multiset.mem_singleton.mp hr]

theorem idle_gather {parts : List (Job Json)} {next : List Json → Job α}
    (hp : ∀ part ∈ parts, part.Idle) (h : ∀ vs, (next vs).Idle) : (gather parts next).Idle := by
  have hparts : OrderlyAll parts ∧ ∀ r ∈ leavesAll parts, r.phase = .arriving := by
    induction parts with
    | nil => exact ⟨trivial, fun r hr => absurd hr (Multiset.notMem_zero r)⟩
    | cons part parts ih =>
      obtain ⟨ho, ha⟩ := ih fun p hmem => hp p (List.mem_cons_of_mem part hmem)
      obtain ⟨ho', ha'⟩ := hp part List.mem_cons_self
      refine ⟨⟨ho', ho⟩, fun r hr => ?_⟩
      rcases Multiset.mem_add.mp hr with hr | hr
      · exact ha' r hr
      · exact ha r hr
  exact ⟨⟨hparts.1, h⟩, hparts.2⟩

theorem idle_attempt {part : Job Json} {next : Except EvalError Json → Job α} (hp : part.Idle)
    (h : ∀ r, (next r).Idle) : (attempt part next).Idle := ⟨⟨hp.1, h⟩, hp.2⟩

theorem idle_bind {f : α → Job β} (hf : ∀ a, (f a).Idle) :
    {job : Job α} → job.Idle → (job.bind f).Idle
  | done (.ok a), _ => hf a
  | done (.error _), _ => idle_done _
  | openStack _ _ _, h => ⟨fun id => idle_bind hf (h.1 id), h.2⟩
  | ask _ _ _ _, h => ⟨fun a => idle_bind hf (h.1 a), h.2⟩
  | gather _ _, h => ⟨⟨h.1.1, fun vs => idle_bind hf (h.1.2 vs)⟩, h.2⟩
  | attempt _ _, h => ⟨⟨h.1.1, fun r => idle_bind hf (h.1.2 r)⟩, h.2⟩

/-- Whatever is put together from jobs that have not begun has not begun. -/
theorem idle_compositional :
    Compositional (fun _ _ _ => True) (fun _ => True) fun _ job _ => job.Idle where
  done r _ := idle_done r
  openStack h := idle_openStack fun id => h id trivial
  query _ _ := idle_ask fun _ => idle_done _
  all h := idle_gather (forall_of_forall₂ h) fun _ => idle_done _
  outcome h := idle_attempt h fun _ => idle_done _
  bind h hf := idle_bind hf h

end Job

end StackExpr
