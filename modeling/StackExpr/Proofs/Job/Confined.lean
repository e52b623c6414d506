import StackExpr.Proofs.Run
/-!
# Which caches a job asks

`job.Confined w among` says of a job that it asks only caches with certain numbers, and that it
blames the cloud only for a request that was made at these caches and may fail in the world `w`.
Whatever stacks the job opens on its way, it may ask their caches only if they are among these as
well.

This is compositional (`Job.confined_compositional`) and kept by moves, so
**every operation of a run asks only the caches that it is meant for** (`Run.confined`): those of
its evaluator, and those of the stacks in the tree of the evaluator.
-/

namespace StackExpr

namespace Job

variable {α β : Type} {w : World} {among : Nat → Prop}

/-- Where a job fails for the cloud's sake, a request at certain caches may fail so. -/
def Blames (w : World) (among : Nat → Prop) (r : Except Failure α) : Prop :=
  ∀ message, r = .error (.client message) → ∃ id kind, among id ∧ w.refuses id kind message

mutual

/-- The job asks only certain caches, and blames the cloud only for what may fail there. -/
def Confined (w : World) (among : Nat → Prop) : {α : Type} → Job α → Prop
  | _, done r => Blames w among r
  | _, openStack stack region next => ∀ id, w.opened id stack region → Confined w among (next id)
  | _, ask id _ _ next => among id ∧ ∀ a, Confined w among (next a)
  | _, gather parts next => ConfinedAll w among parts ∧ ∀ vs, Confined w among (next vs)
  | _, attempt part next => Confined w among part ∧ ∀ r, Confined w among (next r)

/-- Each job of a list asks only certain caches. -/
def ConfinedAll (w : World) (among : Nat → Prop) : List (Job Json) → Prop
  | [] => True
  | job :: jobs => Confined w among job ∧ ConfinedAll w among jobs

end

theorem confinedAll_iff {jobs : List (Job Json)} :
    ConfinedAll w among jobs ↔ ∀ job ∈ jobs, job.Confined w among := by
  induction jobs with
  | nil => simp [ConfinedAll]
  | cons job jobs ih => rw [ConfinedAll, ih, List.forall_mem_cons]

theorem confined_bind {f : α → Job β} (hf : ∀ a, (f a).Confined w among) :
    {job : Job α} → job.Confined w among → (job.bind f).Confined w among
  | done (.ok a), _ => hf a
  | done (.error e), h => fun message he => h message (by rw [Except.error.inj he])
  | openStack _ _ _, h => fun id hid => confined_bind hf (h id hid)
  | ask _ _ _ _, h => ⟨h.1, fun a => confined_bind hf (h.2 a)⟩
  | gather _ _, h => ⟨h.1, fun vs => confined_bind hf (h.2 vs)⟩
  | attempt _ _, h => ⟨h.1, fun r => confined_bind hf (h.2 r)⟩

theorem confined_pure (a : α) : (pure a : Job α).Confined w among := fun _ h => nomatch h

/-- Whatever is put together from jobs that ask only certain caches asks only these. -/
theorem confined_compositional (w : World) (among : Nat → Prop) :
    Compositional w.opened among fun _ job _ => job.Confined w among where
  done _ h := fun message hr => absurd hr (h message)
  openStack h := h
  query _ h := ⟨h, confined_pure⟩
  all h := ⟨confinedAll_iff.mpr (forall_of_forall₂ h), confined_pure⟩
  outcome h := ⟨h, confined_pure⟩
  bind h hf := confined_bind hf h

mutual

/-- The readers in the job stand at the caches that it may ask. -/
theorem caches_of_mem_leaves : {α : Type} → (job : Job α) → job.Confined w among →
    ∀ r ∈ job.leaves, among r.caches
  | _, done _, _ => fun r hr => absurd hr (Multiset.notMem_zero r)
  | _, openStack _ _ _, _ => fun r hr => absurd hr (Multiset.notMem_zero r)
  | _, ask _ _ _ _, h => fun r hr => by
    rw [Multiset.mem_singleton.mp hr]
    exact h.1
  | _, gather parts _, h => caches_of_mem_leavesAll parts h.1
  | _, attempt part _, h => caches_of_mem_leaves part h.1

theorem caches_of_mem_leavesAll : (jobs : List (Job Json)) → ConfinedAll w among jobs →
    ∀ r ∈ leavesAll jobs, among r.caches
  | [], _ => fun r hr => absurd hr (Multiset.notMem_zero r)
  | job :: jobs, h => fun r hr => by
    rcases Multiset.mem_add.mp hr with hr | hr
    · exact caches_of_mem_leaves job h.1 r hr
    · exact caches_of_mem_leavesAll jobs h.2 r hr

end

/-- **A job asks only the same caches after every move that the world admits.** -/
theorem Move.confined {client : Client} {job job' : Job α} {s s' : Session} {events : List Event}
    (hm : Move client job s events job' s')
    (hopened : ∀ id stack region, s'.Opened id stack region → w.opened id stack region)
    (hevents : ∀ e ∈ events, w.Admits e) (h : job.Confined w among) :
    job'.Confined w among := by
  induction hm with
  | @opened _ s stack region next =>
    refine h _ (hopened _ _ _ ⟨{ stack, region }, ?_, rfl, rfl⟩)
    simp [Session.openStack]
  | answered ha => exact h.2 _
  | @refused _ s s' id q p message next ha =>
    intro m hm
    obtain rfl := Failure.client.inj (Except.error.inj hm)
    obtain ⟨r, n, hk, hr⟩ := Session.refused_mem_events ha
    have hw := hevents _ hr
    rw [World.Admits] at hw
    exact ⟨id, r.kind, h.1, hw⟩
  | suspended ha => exact h
  | part before after hm ih =>
    obtain ⟨hparts, hnext⟩ := h
    rw [confinedAll_iff, List.forall_mem_append, List.forall_mem_cons] at hparts
    obtain ⟨hbefore, hjob, hafter⟩ := hparts
    refine ⟨?_, hnext⟩
    rw [confinedAll_iff, List.forall_mem_append, List.forall_mem_cons]
    exact ⟨hbefore, ih hopened hevents hjob, hafter⟩
  | gathered hvs => exact h.2 _
  | @calledOff _ s before after e next order hperm hc =>
    have hpart := confinedAll_iff.mp h.1 (done (.error e)) (by simp)
    exact fun message hr => hpart message (by rw [Except.error.inj hr])
  | attempting hm ih => exact ⟨ih hopened hevents h.1, h.2⟩
  | attempted r => exact h.2 r
  | abandoned hne =>
    have hpart : Blames w among (.error _) := h.1
    exact fun message hr => hpart message (by rw [Except.error.inj hr])

end Job

/-- **Every operation of a run asks only the caches that it is meant for.** -/
theorem Run.confined {client : Client} {log : List Event} {tasks : Multiset Task} {s : Session}
    {w : World} {among : Nat → Prop} (h : Run client log tasks s)
    (hw : ∀ id stack region, s.Opened id stack region → w.opened id stack region) {t : Task}
    (ht : t ∈ tasks) (hlog : ∀ e ∈ t.log, w.Admits e) (hop : t.op.Inside w.opened among) :
    t.job.Confined w among := by
  refine h.keeps (P := fun op job own => (∀ e ∈ own, w.Admits e) →
    op.Inside w.opened among → job.Confined w among) hw
    (fun op _ => op.job_related (Job.confined_compositional w among)) ?_ t ht hlog hop
  intro op job job' own events s s' hm ho ih hlog hop
  refine hm.confined ho (fun e he => hlog e (List.mem_append_right _ he)) ?_
  exact ih (fun e he => hlog e (List.mem_append_left _ he)) hop

end StackExpr
