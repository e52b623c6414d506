import Mathlib.Data.Multiset.Bind
import StackExpr.Proofs.Job.Ensures
import StackExpr.Proofs.Job.Idle
import StackExpr.Proofs.Job.Step
/-!
# Runs of operations

An `Operation` is a question that can be put to an evaluator, or to the caches of a stack. A `Run`
is what may have happened in a session when operations begin, go on and are dropped at any time: one
after the other, side by side, or any mixture of the two. It keeps a log of everything that has
happened, and every operation that is still there (`Task`) keeps a log of what it has done itself.

* `Run.traffic`: **a run is traffic of its session**
* `Run.keeps`: **what the moves of a job keep is kept through the whole run**; `Run.ensures` says
  so of what the job ensures
* `Run.canEnd`: an operation that has ended has ended with a result that its job can end with, for
  the answers and the failures that the operation itself has met with
* `Run.stepped`: a step of a job continues a run, so runs cover all that the running of jobs can do
-/

namespace StackExpr

/-- A question to an evaluator or to caches, or the opening of a stack. -/
inductive Operation where
  | openStack (pages : Nat) (stackName : String) (template : Template) (context : Context)
    (nested : Dict NestedStack)
  | evaluate (ev : Evaluator) (v : Json)
  | establishPhysicalName (ev : Evaluator) (id : String) (name : Option Json)
  | physicalName (ev : Evaluator) (id : String)
  | logicalId (ev : Evaluator) (name : String)
  | getAttTarget (ev : Evaluator) (id : String) (attr : Option String)
  | child (ev : Evaluator) (id : String)
  | query (caches : Nat) (q : Query)

namespace Operation

/-- What an operation is answered with. -/
@[reducible] def Answer : Operation → Type
  | openStack _ _ _ _ _ => Evaluator
  | evaluate _ _ => Json
  | establishPhysicalName _ _ _ => Option String
  | physicalName _ _ => Option String
  | logicalId _ _ => Option String
  | getAttTarget _ _ _ => Option Json
  | child _ _ => Option Evaluator
  | query _ q => q.Answer

/-- The job for an operation. -/
def job : (op : Operation) → Job op.Answer
  | openStack pages stackName template context nested =>
    Evaluator.openStack pages stackName template context nested
  | evaluate ev v => ev.evaluate v
  | establishPhysicalName ev id name => ev.establishPhysicalName? id name
  | physicalName ev id => ev.physicalName? id
  | logicalId ev name => ev.logicalId? name
  | getAttTarget ev id attr => ev.getAttTarget? id attr
  | child ev id => ev.child? id
  | query caches q => Job.query caches q

/-- The caches that an operation may ask are among certain ones. -/
def Inside (opened : (id : Nat) → (stack region : String) → Prop) (among : Nat → Prop) :
    Operation → Prop
  | openStack _ _ _ _ _ => True
  | evaluate ev _ => ev.Inside opened among
  | establishPhysicalName ev _ _ => ev.Inside opened among
  | physicalName ev _ => ev.Inside opened among
  | logicalId ev _ => ev.Inside opened among
  | getAttTarget ev _ _ => ev.Inside opened among
  | child ev _ => ev.Inside opened among
  | query caches _ => among caches

/-- **What is compositional holds of the jobs of all operations.** -/
theorem job_related {opened : (id : Nat) → (stack region : String) → Prop} {among : Nat → Prop}
    {R : (α : Type) → Job α → Job α → Prop} (hR : Job.Compositional opened among R)
    (op : Operation) (h : op.Inside opened among) : R op.Answer op.job op.job := by
  cases op with
  | openStack pages stackName template context nested => exact hR.openStack fun _ _ => hR.pure _
  | evaluate ev v => exact hR.evaluateAt _ ev h _
  | establishPhysicalName ev id name => exact hR.establishPhysicalName? h id name
  | physicalName ev id => exact hR.physicalName? h id
  | logicalId ev name => exact hR.logicalId? h name
  | getAttTarget ev id attr => exact hR.getAttTarget? h id attr
  | child ev id => exact hR.child? h id
  | query caches q => exact hR.query q h

theorem inside_true (op : Operation) (opened : (id : Nat) → (stack region : String) → Prop) :
    op.Inside opened fun _ => True := by
  cases op <;> first | trivial | exact Evaluator.inside_true _

theorem idle_job (op : Operation) : op.job.Idle :=
  op.job_related Job.idle_compositional (op.inside_true _)

end Operation

/-- An operation on its way: what remains of its job, and what it has done. -/
structure Task where
  op : Operation
  job : Job op.Answer
  log : List Event

/-- The readers in tasks. -/
def readersIn (tasks : Multiset Task) : Multiset Reader := tasks.bind fun t => t.job.leaves

/-- What may have happened in a session, the operations that are still there, and the session
then. -/
inductive Run (client : Client) : List Event → Multiset Task → Session → Prop where
  | start : Run client [] 0 {}
  /-- An operation begins. -/
  | begun {log : List Event} {tasks : Multiset Task} {s : Session} (op : Operation)
    (h : Run client log tasks s) : Run client log (⟨op, op.job, []⟩ ::ₘ tasks) s
  /-- An operation goes on. -/
  | moved {log events : List Event} {tasks : Multiset Task} {s s' : Session} {t : Task}
    {job : Job t.op.Answer} (hm : t.job.Move client s events job s')
    (h : Run client log (t ::ₘ tasks) s) :
    Run client (log ++ events) (⟨t.op, job, t.log ++ events⟩ ::ₘ tasks) s'
  /-- An operation is dropped, whether it has ended or not. -/
  | dropped {log : List Event} {tasks : Multiset Task} {s : Session} {t : Task}
    (h : Run client log (t ::ₘ tasks) s) : Run client log tasks (t.job.cancel s)

namespace Run

variable {client : Client} {log : List Event} {tasks : Multiset Task} {s : Session}

/-- **A run is traffic of its session.** -/
theorem traffic (h : Run client log tasks s) :
    Traffic client log (readersIn tasks) s ∧ ∀ t ∈ tasks, t.job.Orderly := by
  induction h with
  | start => exact ⟨.quiet, fun t ht => absurd ht (Multiset.notMem_zero t)⟩
  | @begun log tasks s op h ih =>
    obtain ⟨ht, ho⟩ := ih
    rw [readersIn, Multiset.cons_bind]
    refine ⟨Job.traffic_of_arriving op.idle_job.2 ht, fun t hmem => ?_⟩
    rcases Multiset.mem_cons.mp hmem with rfl | hmem
    · exact op.idle_job.1
    · exact ho t hmem
  | @moved log events tasks s s' t job hm h ih =>
    obtain ⟨ht, ho⟩ := ih
    rw [readersIn, Multiset.cons_bind] at ht
    have hjob := ho t (Multiset.mem_cons_self _ _)
    rw [readersIn, Multiset.cons_bind]
    refine ⟨hm.traffic hjob ht, fun u hmem => ?_⟩
    rcases Multiset.mem_cons.mp hmem with rfl | hmem
    · exact hm.orderly hjob
    · exact ho u (Multiset.mem_cons_of_mem hmem)
  | @dropped log tasks s t h ih =>
    obtain ⟨ht, ho⟩ := ih
    rw [readersIn, Multiset.cons_bind] at ht
    exact ⟨Job.traffic_cancel t.job s ht, fun u hmem => ho u (Multiset.mem_cons_of_mem hmem)⟩

/-- An operation begins with its job, however the job is given. -/
theorem begun_as {op : Operation} {job : Job op.Answer} (hjob : op.job = job)
    (h : Run client log tasks s) : Run client log (⟨op, job, []⟩ ::ₘ tasks) s :=
  hjob ▸ .begun op h

/-- Moves one after the other continue a run. -/
theorem moves {op : Operation} {job job' : Job op.Answer} {s s' : Session}
    {log events own : List Event} (hm : job.Moves client s events job' s')
    (h : Run client log (⟨op, job, own⟩ ::ₘ tasks) s) :
    Run client (log ++ events) (⟨op, job', own ++ events⟩ ::ₘ tasks) s' := by
  induction hm generalizing log own with
  | none job s => rwa [List.append_nil, List.append_nil]
  | cons hm hms ih =>
    rw [← List.append_assoc, ← List.append_assoc]
    exact ih (.moved hm h)

/-- **A step of a job continues a run.** -/
theorem stepped {t : Task} (h : Run client log (t ::ₘ tasks) s) :
    ∃ events, Run client (log ++ events)
      (⟨t.op, (t.job.step client s).1, t.log ++ events⟩ ::ₘ tasks) (t.job.step client s).2 := by
  obtain ⟨events, hm⟩ := Job.step_moves client t.job s
  exact ⟨events, moves hm h⟩

/-- What an operation has done has happened. -/
theorem mem_log (h : Run client log tasks s) {t : Task} (ht : t ∈ tasks) :
    ∀ e ∈ t.log, e ∈ log := by
  induction h generalizing t with
  | start => exact absurd ht (Multiset.notMem_zero t)
  | begun op h ih =>
    rcases Multiset.mem_cons.mp ht with rfl | ht
    · exact fun e he => absurd he List.not_mem_nil
    · exact ih ht
  | @moved log events tasks s s' t' job hm h ih =>
    intro e he
    rcases Multiset.mem_cons.mp ht with rfl | ht
    · rcases List.mem_append.mp he with he | he
      · exact List.mem_append_left _ (ih (Multiset.mem_cons_self _ _) e he)
      · exact List.mem_append_right _ he
    · exact List.mem_append_left _ (ih (Multiset.mem_cons_of_mem ht) e he)
  | dropped h ih => exact ih (Multiset.mem_cons_of_mem ht)

end Run

/-! ## Stacks that were opened -/

namespace Session

/-- The caches with a number are those of a stack in a region. -/
def Opened (s : Session) (id : Nat) (stack region : String) : Prop :=
  ∃ c, s.caches[id]? = some c ∧ c.stack = stack ∧ c.region = region

variable {s s' : Session} {id : Nat} {stack region : String}

theorem Opened.openStack (h : s.Opened id stack region) (stack' region' : String) :
    (s.openStack stack' region').2.Opened id stack region := by
  obtain ⟨c, hc, hs⟩ := h
  refine ⟨c, ?_, hs⟩
  rw [Session.openStack, List.getElem?_append_left (List.getElem?_eq_some_iff.mp hc).1]
  exact hc

theorem Opened.release (h : s.Opened id stack region) (i : Nat) (p : Phase) (q : Query) :
    (s.release i p q).Opened id stack region := by
  obtain ⟨c, hc, hs⟩ := h
  refine ⟨if i = id then c.release p q else c, ?_, ?_⟩
  · rw [Session.release, List.getElem?_modify, hc]
    rfl
  · split
    · cases q <;> exact hs
    · exact hs

theorem Opened.advance {client : Client} {i : Nat} {p : Phase} {q : Query}
    {progress : Progress q.Answer} (h : s.Opened id stack region)
    (ha : s.advance client i p q = (progress, s')) : s'.Opened id stack region := by
  obtain ⟨c, hc, hs⟩ := h
  rcases advance_cases ha with ⟨c₀, c', made, hc₀, hadv, rfl, -⟩ | ⟨-, -, rfl, -⟩
  · obtain ⟨hstack, hregion⟩ := (Caches.advance_step hadv).stack_eq
    by_cases hi : i = id
    · subst hi
      obtain rfl := Option.some.inj (hc₀.symm.trans hc)
      exact ⟨c', List.getElem?_set_self (List.getElem?_eq_some_iff.mp hc).1,
        hstack.trans hs.1, hregion.trans hs.2⟩
    · exact ⟨c, (List.getElem?_set_ne hi).trans hc, hs⟩
  · exact ⟨c, hc, hs⟩

end Session

namespace Job

variable {client : Client} {id : Nat} {stack region : String}

mutual

theorem opened_cancel : {α : Type} → (job : Job α) → {s : Session} →
    s.Opened id stack region → (job.cancel s).Opened id stack region
  | _, done _, _, h => h
  | _, openStack _ _ _, _, h => h
  | _, ask i q p _, _, h => h.release i p q
  | _, gather parts _, _, h => opened_cancelAll parts h
  | _, attempt part _, _, h => opened_cancel part h

theorem opened_cancelAll : (jobs : List (Job Json)) → {s : Session} →
    s.Opened id stack region → (cancelAll jobs s).Opened id stack region
  | [], _, h => h
  | job :: jobs, _, h => opened_cancelAll jobs (opened_cancel job h)

end

/-- Stacks stay open. -/
theorem Move.opened_mono {α : Type} {job job' : Job α} {s s' : Session} {events : List Event}
    (hm : Move client job s events job' s') (h : s.Opened id stack region) :
    s'.Opened id stack region := by
  induction hm with
  | opened stack' region' next => exact h.openStack stack' region'
  | answered ha => exact h.advance ha
  | refused ha => exact h.advance ha
  | suspended ha => exact h.advance ha
  | part before after hm ih => exact ih h
  | gathered hvs => exact h
  | calledOff order hperm hc => exact opened_cancelAll order h
  | attempting hm ih => exact ih h
  | attempted r => exact h
  | abandoned hne => exact h

end Job

/-- **What holds of a job that has not begun, and of what it has done then, and is kept by its
moves, holds through the whole run.** The stacks that the moves find open are open at the end as
well. -/
theorem Run.keeps {client : Client} {log : List Event} {tasks : Multiset Task} {s : Session}
    {opened : (id : Nat) → (stack region : String) → Prop}
    {P : (op : Operation) → Job op.Answer → List Event → Prop} (h : Run client log tasks s)
    (ho : ∀ id stack region, s.Opened id stack region → opened id stack region)
    (hjob : ∀ op, P op op.job [])
    (hmove : ∀ {op : Operation} {job job' : Job op.Answer} {own events : List Event}
      {s s' : Session}, job.Move client s events job' s' →
      (∀ id stack region, s'.Opened id stack region → opened id stack region) →
      P op job own → P op job' (own ++ events)) : ∀ t ∈ tasks, P t.op t.job t.log := by
  induction h with
  | start => exact fun t ht => absurd ht (Multiset.notMem_zero t)
  | begun op h ih =>
    intro t ht
    rcases Multiset.mem_cons.mp ht with rfl | ht
    · exact hjob op
    · exact ih ho t ht
  | @moved log events tasks s s' t' job hm h ih =>
    have ho' := fun id stack region hid => ho id stack region (hm.opened_mono hid)
    intro t ht
    rcases Multiset.mem_cons.mp ht with rfl | ht
    · exact hmove hm ho (ih ho' t' (Multiset.mem_cons_self _ _))
    · exact ih ho' t (Multiset.mem_cons_of_mem ht)
  | @dropped log tasks s t' h ih =>
    intro t ht
    exact ih (fun id stack region hid => ho id stack region (Job.opened_cancel t'.job hid)) t
      (Multiset.mem_cons_of_mem ht)

/-- **An operation keeps what its job ensures, through the whole run**, in a world that knows the
stacks that were opened and admits what the operation has done. -/
theorem Run.ensures {client : Client} {log : List Event} {tasks : Multiset Task} {s : Session}
    {w : World} (h : Run client log tasks s)
    (hw : ∀ id stack region, s.Opened id stack region → w.opened id stack region) {t : Task}
    (ht : t ∈ tasks) (hlog : ∀ e ∈ t.log, w.Admits e) {Q : Except Failure t.op.Answer → Prop}
    (hQ : t.op.job.Ensures w Q) : t.job.Ensures w Q := by
  refine h.keeps (P := fun op job own => ∀ Q : Except Failure op.Answer → Prop,
    (∀ e ∈ own, w.Admits e) → op.job.Ensures w Q → job.Ensures w Q) hw (fun _ _ _ hQ => hQ) ?_ t ht
    Q hlog hQ
  intro op job job' own events s s' hm ho ih Q hlog hQ
  refine hm.ensures (fun id c hc => ho id _ _ ⟨c, hc, rfl, rfl⟩)
    (fun e he => hlog e (List.mem_append_right _ he)) ?_
  exact ih Q (fun e he => hlog e (List.mem_append_left _ he)) hQ

/-- What an operation has met with that has done this, in a session at whose end these caches are
open. -/
def Session.met (s : Session) (own : List Event) : World where
  opened := s.Opened
  answers id q a := .read id q a ∈ own
  refuses id kind message := ∃ r n, r.kind = kind ∧ .refused id r n message ∈ own

theorem Session.admits_met (s : Session) {own : List Event} {e : Event} (he : e ∈ own) :
    (s.met own).Admits e := by
  cases e with
  | asked id r n => trivial
  | answered id r n a => trivial
  | refused id r n message => exact ⟨r, n, rfl, he⟩
  | read id q a => exact he

/-- **An operation has ended with what its job can end with.** -/
theorem Run.canEnd {client : Client} {log own : List Event} {tasks : Multiset Task} {s : Session}
    {op : Operation} {r : Except Failure op.Answer} (h : Run client log tasks s)
    (ht : ⟨op, .done r, own⟩ ∈ tasks) : op.job.CanEnd (s.met own) r :=
  fun _ hQ => h.ensures (fun _ _ _ ho => ho) ht (fun _ he => s.admits_met he) hQ

end StackExpr
