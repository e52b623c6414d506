import Mathlib.Logic.Hydra
import StackExpr.Proofs.Evaluators
import StackExpr.Proofs.Job.Confined
import StackExpr.Proofs.Job.Rounds
/-!
# All operations end

Operations side by side wait for each other: only one of them fetches what several want, and a
lookup of an export keeps the others out while it reads page after page. Still,
**no operation waits for ever**:

* whoever stands at a lock is a reader of an operation that has not ended
  (`Run.exists_of_mem_queue`), so an operation that has ended or was dropped, and a part that was
  called off, leaves no lock behind
* as long as an operation has not ended, one of them has a request under way or can go on
  (`Run.exists_canMove`)
* operations do not go on for ever (`wellFounded_advances`), so in whatever order they go on, they
  all end, and the rounds of `Job.rounds` are one such order (`Run.exists_rounds`)

Together: `Run.completes`. An expression that leads to others without end is no exception, because
the evaluator gives it up when its depth is used up.
-/

namespace StackExpr

open Job

/-! ## Operations at open caches -/

namespace Operation

/-- The number of the caches that an operation is put to. -/
def caches? : Operation → Option Nat
  | openStack _ _ _ _ _ => none
  | evaluate ev _ => some ev.caches
  | establishPhysicalName ev _ _ => some ev.caches
  | physicalName ev _ => some ev.caches
  | logicalId ev _ => some ev.caches
  | getAttTarget ev _ _ => some ev.caches
  | child ev _ => some ev.caches
  | query caches _ => some caches

/-- The caches that an operation is put to are open. -/
def Open (s : Session) (op : Operation) : Prop := ∀ id ∈ op.caches?, id < s.caches.length

/-- The job of an operation; its answer is marked as one to it. -/
def marked (op : Operation) : Job ((op : Operation) × op.Answer) :=
  op.job.bind fun a => pure ⟨op, a⟩

end Operation

/-- Nobody holds a lock or waits for one. -/
def Session.Free (s : Session) : Prop := ∀ c ∈ s.caches, ∀ kind, (c.lock kind).queue = []

theorem Session.Opened.lt {s : Session} {id : Nat} {stack region : String}
    (h : s.Opened id stack region) : id < s.caches.length := by
  obtain ⟨c, hc, -⟩ := h
  exact (List.getElem?_eq_some_iff.mp hc).1

/-- An operation at open caches asks open caches only. -/
theorem Operation.Open.inside {s : Session} {op : Operation} (h : op.Open s) :
    op.Inside s.Opened (· < s.caches.length) := by
  have hev : ∀ ev : Evaluator, ev.caches < s.caches.length →
      ev.Inside s.Opened (· < s.caches.length) := fun ev hid =>
    ⟨hid, fun _ _ _ _ _ ho => ho.lt⟩
  cases op with
  | openStack pages stackName template context nested => trivial
  | evaluate ev v => exact hev ev (h _ rfl)
  | establishPhysicalName ev id name => exact hev ev (h _ rfl)
  | physicalName ev id => exact hev ev (h _ rfl)
  | logicalId ev name => exact hev ev (h _ rfl)
  | getAttTarget ev id attr => exact hev ev (h _ rfl)
  | child ev id => exact hev ev (h _ rfl)
  | query caches q => exact h _ rfl

/-! ## No deadlock -/

namespace Task

/-- The operation has ended. -/
def Ended (t : Task) : Prop := t.job.result?.isSome

/-- The operation has a request of its own under way. -/
def InFlight (t : Task) : Prop := ∃ r ∈ t.job.leaves, r.phase.isFetching = true

/-- The operation can do something that changes it and for which no reply is needed. -/
def Runnable (client : Client) (s : Session) (t : Task) : Prop :=
  ∃ events job s', t.job.Move client s events job s' ∧ job ≠ t.job ∧
    ∀ e ∈ events, e.isReply = false

theorem not_ended_of_mem_leaves {t : Task} {r : Reader} (h : r ∈ t.job.leaves) : ¬ t.Ended := by
  rw [Ended, result?_of_mem_leaves h]
  simp

end Task

theorem mem_readersIn {tasks : Multiset Task} {r : Reader} :
    r ∈ readersIn tasks ↔ ∃ t ∈ tasks, r ∈ t.job.leaves := Multiset.mem_bind

namespace Run

variable {client : Client} {log : List Event} {tasks : Multiset Task} {s : Session}

/-- **Whoever stands at a lock is a reader of an operation that has not ended.** -/
theorem exists_of_mem_queue (h : Run client log tasks s) {id : Nat} {c : Caches}
    (hc : s.caches[id]? = some c) {kind : RequestKind} {ticket : Nat}
    (ht : ticket ∈ (c.lock kind).queue) : ∃ t ∈ tasks, ¬ t.Ended ∧ ∃ r ∈ t.job.leaves,
      r.caches = id ∧ r.query.kind = kind ∧ r.phase.ticket? = some ticket := by
  rw [← Multiset.mem_coe, ← ((h.traffic.1.toCaches hc).guarded kind).tickets] at ht
  obtain ⟨p, hp, hticket⟩ := (Multiset.mem_filterMap _ _).mp ht
  obtain ⟨r, hr, hkind, rfl⟩ := exists_of_mem_phasesAt hp
  obtain ⟨hr, hid⟩ := Multiset.mem_filter.mp hr
  obtain ⟨t, htask, hleaf⟩ := mem_readersIn.mp hr
  exact ⟨t, htask, Task.not_ended_of_mem_leaves hleaf, r, hleaf, hid, hkind, hticket⟩

/-- Operations at open caches ask open caches only. -/
theorem caches_lt (h : Run client log tasks s) (hopen : ∀ t ∈ tasks, t.op.Open s) :
    ∀ r ∈ readersIn tasks, r.caches < s.caches.length := by
  intro r hr
  obtain ⟨t, ht, hleaf⟩ := mem_readersIn.mp hr
  let w : World := ⟨s.Opened, fun _ _ _ => True, fun _ _ _ => True⟩
  have hadmits : ∀ e ∈ t.log, w.Admits e := fun e _ => by cases e <;> trivial
  have hc := h.confined (w := w) (fun _ _ _ ho => ho) ht hadmits (hopen t ht).inside
  exact caches_of_mem_leaves t.job hc r hleaf

/-- **As long as an operation has not ended, one of them has a request under way or can go on.** -/
theorem exists_canMove (h : Run client log tasks s) (hopen : ∀ t ∈ tasks, t.op.Open s)
    (hne : ∃ t ∈ tasks, ¬ t.Ended) : ∃ t ∈ tasks, ¬ t.Ended ∧
      ∃ fetching, t.job.CanMove client s fetching ∧ (fetching = true → t.InFlight) := by
  by_cases hz : readersIn tasks = 0
  · obtain ⟨t, ht, hend⟩ := hne
    have hleaves : t.job.leaves = 0 := by
      refine Multiset.eq_zero_of_forall_notMem fun r hr => ?_
      have hmem := mem_readersIn.mpr ⟨t, ht, hr⟩
      rw [hz] at hmem
      exact Multiset.notMem_zero r hmem
    have hr : t.job.result? = none := by simpa [Task.Ended] using hend
    exact ⟨t, ht, hend, false, exists_move_of_leaves t.job hr hleaves, by simp⟩
  · obtain ⟨r, hr, ha⟩ := h.traffic.1.exists_awake (h.caches_lt hopen) hz
    obtain ⟨t, ht, hleaf⟩ := mem_readersIn.mp hr
    exact ⟨t, ht, Task.not_ended_of_mem_leaves hleaf, _, exists_move_of_awake ha t.job hleaf,
      fun hf => ⟨r, hleaf, hf⟩⟩

/-- When all operations have ended, all locks are free. -/
theorem free (h : Run client log tasks s) (hend : ∀ t ∈ tasks, t.Ended) : s.Free := by
  intro c hc kind
  obtain ⟨id, hid⟩ := List.mem_iff_getElem?.mp hc
  refine List.eq_nil_iff_forall_not_mem.mpr fun ticket hticket => ?_
  obtain ⟨t, ht, hne, -⟩ := h.exists_of_mem_queue hid hticket
  exact hne (hend t ht)

end Run

/-! ## No endless going on -/

/-- An operation has got nearer to its end. -/
inductive Task.Nearer (cloud : Cloud) : Task → Task → Prop where
  | of_job {op : Operation} {job' job : Job op.Answer} (own' own : List Event)
    (h : Job.Nearer cloud job' job) : Task.Nearer cloud ⟨op, job', own'⟩ ⟨op, job, own⟩

theorem Task.wellFounded_nearer (cloud : Cloud) : WellFounded (Task.Nearer cloud) := by
  refine ⟨fun t => ?_⟩
  obtain ⟨op, job, own⟩ := t
  induction (Job.wellFounded_nearer cloud op.Answer).apply job generalizing own with
  | intro job _ ih =>
    refine ⟨_, fun t ht => ?_⟩
    cases ht with
    | of_job own' own h => exact ih _ h own'

/-- Among operations side by side, one does something that changes it. -/
inductive Advances (client : Client) :
    Multiset Task × Session → Multiset Task × Session → Prop where
  | of_move {tasks : Multiset Task} {s s' : Session} {t : Task} {job : Job t.op.Answer}
    {events : List Event} (hm : t.job.Move client s events job s') (hne : job ≠ t.job) :
    Advances client (t ::ₘ tasks, s) (⟨t.op, job, t.log ++ events⟩ ::ₘ tasks, s')

/-- When operations advance, one of them moves, and this changes it. -/
theorem Advances.exists_move {client : Client} {tasks : Multiset Task} {s : Session}
    {y : Multiset Task × Session} (h : Advances client (tasks, s) y) :
    ∃ (t : Task) (others : Multiset Task) (events : List Event) (job : Job t.op.Answer)
      (s' : Session), tasks = t ::ₘ others ∧ y = (⟨t.op, job, t.log ++ events⟩ ::ₘ others, s') ∧
        t.job.Move client s events job s' ∧ job ≠ t.job := by
  cases h with
  | of_move hm hne => exact ⟨_, _, _, _, _, rfl, rfl, hm, hne⟩

/-- **Operations do not go on for ever**: there are finitely many of them, and each time one of them
gets nearer to its end. -/
theorem wellFounded_advances (client : Client) :
    WellFounded fun y x : Multiset Task × Session => Advances client x y := by
  refine Subrelation.wf (fun {y x} h => ?_)
    (InvImage.wf Prod.fst (Task.wellFounded_nearer client.cloud).cutExpand)
  cases h with
  | @of_move tasks s s' t job events hm hne =>
    have hn : Task.Nearer client.cloud ⟨t.op, job, t.log ++ events⟩ t :=
      .of_job _ t.log (hm.nearer.resolve_right fun h => hne h.1)
    have hcut := Relation.cutExpand_single_add hn tasks
    rwa [Multiset.singleton_add, Multiset.singleton_add] at hcut

theorem Job.Nearer.ne {cloud : Cloud} {α : Type} {job' job : Job α}
    (h : Job.Nearer cloud job' job) : job' ≠ job := by
  rintro rfl
  exact (Job.wellFounded_nearer cloud α).irrefl.irrefl _ h

/-- What can get nearer to its end can be advanced. -/
theorem Advances.of_canMove {client : Client} {tasks : Multiset Task} {s : Session} {t : Task}
    {fetching : Bool} (ht : t ∈ tasks) (h : t.job.CanMove client s fetching) :
    ∃ x, Advances client (tasks, s) x := by
  obtain ⟨others, rfl⟩ := Multiset.exists_cons_of_mem ht
  obtain ⟨events, job, s', hm, hn, -⟩ := h
  exact ⟨_, .of_move hm hn.ne⟩

theorem Operation.Open.mono {s s' : Session} {op : Operation}
    (hs : s.caches.length ≤ s'.caches.length) (h : op.Open s) : op.Open s' :=
  fun id hid => (h id hid).trans_le hs

/-- Stacks stay open. -/
theorem Job.Move.length_le {client : Client} {α : Type} {job job' : Job α} {s s' : Session}
    {events : List Event} (hm : Move client job s events job' s') :
    s.caches.length ≤ s'.caches.length := by
  by_contra hlt
  have hid : s'.caches.length < s.caches.length := by omega
  have hopen : s.Opened s'.caches.length _ _ := ⟨_, List.getElem?_eq_getElem hid, rfl, rfl⟩
  exact Nat.lt_irrefl _ (hm.opened_mono hopen).lt

/-- The moves of an operation one after the other, those left out that change nothing. -/
theorem Advances.of_moves {client : Client} {op : Operation} {job job' : Job op.Answer}
    {own events : List Event} {others : Multiset Task} {s s' : Session}
    (hm : Moves client job s events job' s') : Relation.ReflTransGen (Advances client)
      (⟨op, job, own⟩ ::ₘ others, s) (⟨op, job', own ++ events⟩ ::ₘ others, s') := by
  induction hm generalizing own with
  | none job s => rw [List.append_nil]
  | @cons job job₁ job' s s₁ s' events events' hm hms ih =>
    rcases hm.nearer with hn | ⟨rfl, rfl, rfl⟩
    · rw [← List.append_assoc]
      exact ih.head (.of_move (t := ⟨op, job, own⟩) hm hn.ne)
    · exact ih

/-- What advances in a run is a run. -/
theorem Run.advances {client : Client} {log : List Event} {x y : Multiset Task × Session}
    (h : Run client log x.1 x.2) (hopen : ∀ t ∈ x.1, t.op.Open x.2) (ha : Advances client x y) :
    (∃ log', Run client log' y.1 y.2) ∧ ∀ t ∈ y.1, t.op.Open y.2 := by
  cases ha with
  | of_move hm hne =>
    have hle := hm.length_le
    obtain ⟨ht, hothers⟩ := Multiset.forall_mem_cons.mp hopen
    exact ⟨⟨_, .moved hm h⟩,
      Multiset.forall_mem_cons.mpr ⟨ht.mono hle, fun t ht => (hothers t ht).mono hle⟩⟩

/-- What advances are the same operations. -/
theorem Advances.map_op {client : Client} {x y : Multiset Task × Session}
    (ha : Advances client x y) : y.1.map Task.op = x.1.map Task.op := by
  cases ha with
  | of_move hm hne => rw [Multiset.map_cons, Multiset.map_cons]

theorem Advances.map_op_of_reached {client : Client} {x y : Multiset Task × Session}
    (hr : Relation.ReflTransGen (Advances client) x y) :
    y.1.map Task.op = x.1.map Task.op := by
  induction hr with
  | refl => rfl
  | tail _ ha ih => exact ha.map_op.trans ih

/-- However far operations have advanced in a run, it is a run. -/
theorem Run.reached {client : Client} {log : List Event} {x y : Multiset Task × Session}
    (h : Run client log x.1 x.2) (hopen : ∀ t ∈ x.1, t.op.Open x.2)
    (hr : Relation.ReflTransGen (Advances client) x y) :
    (∃ log', Run client log' y.1 y.2) ∧ ∀ t ∈ y.1, t.op.Open y.2 := by
  induction hr with
  | refl => exact ⟨⟨log, h⟩, hopen⟩
  | tail _ ha ih =>
    obtain ⟨⟨log', h'⟩, hopen'⟩ := ih
    exact h'.advances hopen' ha

/-- Operations may go on as long as something can. -/
theorem Advances.exists_sequence (client : Client) (x : Multiset Task × Session) :
    ∃ state : Nat → Multiset Task × Session, state 0 = x ∧ ∀ n,
      Advances client (state n) (state (n + 1)) ∨ ∀ y, ¬ Advances client (state n) y := by
  classical
  let next (y : Multiset Task × Session) : Multiset Task × Session :=
    if h : ∃ z, Advances client y z then h.choose else y
  refine ⟨fun n => next^[n] x, rfl, fun n => ?_⟩
  by_cases h : ∃ z, Advances client (next^[n] x) z
  · left
    show Advances client (next^[n] x) (next^[n + 1] x)
    rw [Function.iterate_succ_apply']
    show Advances client (next^[n] x) (if h : _ then _ else _)
    rw [dif_pos h]
    exact h.choose_spec
  · exact Or.inr fun y hy => h ⟨y, hy⟩

/-- Whatever goes on next, as long as something can go on: at some time nothing can. -/
theorem Advances.exists_stuck {client : Client} {state : Nat → Multiset Task × Session}
    (hstate : ∀ n, Advances client (state n) (state (n + 1)) ∨ ∀ x, ¬ Advances client (state n) x) :
    ∃ n, Relation.ReflTransGen (Advances client) (state 0) (state n) ∧
      ∀ x, ¬ Advances client (state n) x := by
  have hstuck : ∃ n, ∀ x, ¬ Advances client (state n) x := by
    by_contra hgoes
    obtain ⟨n, hn⟩ := WellFounded.not_rel_apply_succ (h := ⟨wellFounded_advances client⟩) state
    exact hgoes ⟨n, (hstate n).resolve_left hn⟩
  classical
  -- The first such state is reached, because everything before it went on.
  have hreached : ∀ n ≤ Nat.find hstuck,
      Relation.ReflTransGen (Advances client) (state 0) (state n) := by
    intro n hn
    induction n with
    | zero => exact .refl
    | succ n ih =>
      exact (ih (Nat.le_of_succ_le hn)).tail ((hstate n).resolve_right (Nat.find_min hstuck hn))
  exact ⟨_, hreached _ le_rfl, Nat.find_spec hstuck⟩

/-- Whatever goes on next, as long as something can go on: a state is reached in which all
operations have ended. -/
theorem Run.exists_reached {client : Client} {log : List Event} {tasks : Multiset Task}
    {s : Session} (h : Run client log tasks s) (hopen : ∀ t ∈ tasks, t.op.Open s)
    {state : Nat → Multiset Task × Session} (hstart : state 0 = (tasks, s))
    (hstate : ∀ n, Advances client (state n) (state (n + 1)) ∨ ∀ x, ¬ Advances client (state n) x) :
    ∃ n, Relation.ReflTransGen (Advances client) (tasks, s) (state n) ∧
      ∀ t ∈ (state n).1, t.Ended := by
  obtain ⟨n, hr, hstuck⟩ := Advances.exists_stuck hstate
  rw [hstart] at hr
  obtain ⟨⟨log', h'⟩, hopen'⟩ := Run.reached (x := (tasks, s)) h hopen hr
  refine ⟨n, hr, ?_⟩
  by_contra hne
  obtain ⟨t, ht, -, fetching, hm, -⟩ := h'.exists_canMove hopen' (by simpa using hne)
  obtain ⟨x, hx⟩ := Advances.of_canMove ht hm
  exact hstuck x hx

/-- Whatever goes on next, as long as something can go on: at some time the run is one in which all
operations have ended. -/
theorem Run.exists_last {client : Client} {log : List Event} {tasks : Multiset Task} {s : Session}
    (h : Run client log tasks s) (hopen : ∀ t ∈ tasks, t.op.Open s)
    {state : Nat → Multiset Task × Session} (hstart : state 0 = (tasks, s))
    (hstate : ∀ n, Advances client (state n) (state (n + 1)) ∨ ∀ x, ¬ Advances client (state n) x) :
    ∃ n log', Run client log' (state n).1 (state n).2 ∧
      (state n).1.map Task.op = tasks.map Task.op ∧ ∀ t ∈ (state n).1, t.Ended := by
  obtain ⟨n, hr, hend⟩ := h.exists_reached hopen hstart hstate
  obtain ⟨⟨log', h'⟩, -⟩ := Run.reached (x := (tasks, s)) h hopen hr
  exact ⟨n, log', h', Advances.map_op_of_reached hr, hend⟩

/-- **Whatever goes on next, as long as something can go on: in the end all operations have
ended.** -/
theorem Run.exists_ended {client : Client} {log : List Event} {tasks : Multiset Task} {s : Session}
    (h : Run client log tasks s) (hopen : ∀ t ∈ tasks, t.op.Open s)
    {state : Nat → Multiset Task × Session} (hstart : state 0 = (tasks, s))
    (hstate : ∀ n, Advances client (state n) (state (n + 1)) ∨ ∀ x, ¬ Advances client (state n) x) :
    ∃ n, (∀ t ∈ (state n).1, t.Ended) ∧ (state n).2.Free := by
  obtain ⟨n, log', h', -, hend⟩ := h.exists_last hopen hstart hstate
  exact ⟨n, hend, h'.free hend⟩

/-- Among operations that have ended, one that has not comes to its end. -/
theorem Run.exists_end {client : Client} {log : List Event} {t : Task} {others : Multiset Task}
    {s : Session} (h : Run client log (t ::ₘ others) s) (hopen : ∀ u ∈ t ::ₘ others, u.op.Open s)
    (hothers : ∀ u ∈ others, u.Ended) :
    ∃ log' r own s', Run client log' (⟨t.op, .done r, own⟩ ::ₘ others) s' := by
  induction t using (Task.wellFounded_nearer client.cloud).induction generalizing log s with
  | _ t ih =>
    obtain ⟨op, job, own⟩ := t
    cases hr : job.result? with
    | some r =>
      obtain rfl := result?_eq_some.mp hr
      exact ⟨log, r, own, s, h⟩
    | none =>
      have hne : ¬ (⟨op, job, own⟩ : Task).Ended := by simp [Task.Ended, hr]
      obtain ⟨u, hu, hu', fetching, hm, -⟩ :=
        h.exists_canMove hopen ⟨_, Multiset.mem_cons_self _ _, hne⟩
      -- The one that can go on is the one that has not ended.
      obtain rfl := (Multiset.mem_cons.mp hu).resolve_right fun hu => hu' (hothers u hu)
      obtain ⟨events, job', s', hm, hn, -⟩ := hm
      have hopen' : ∀ u ∈ (⟨op, job', own ++ events⟩ : Task) ::ₘ others, u.op.Open s' := by
        obtain ⟨ht, hrest⟩ := Multiset.forall_mem_cons.mp hopen
        exact Multiset.forall_mem_cons.mpr
          ⟨ht.mono hm.length_le, fun u hu => (hrest u hu).mono hm.length_le⟩
      exact ih ⟨op, job', own ++ events⟩ (.of_job _ own hn) (.moved hm h) hopen'

/-! ## Rounds -/

/-- An operation on its way, and what its caller makes of the answer. -/
structure Caller (β : Type) where
  task : Task
  use : task.op.Answer → β

namespace Caller

variable {β : Type}

/-- The job of the caller. -/
def job (e : Caller β) : Job β := e.task.job.bind fun a => pure (e.use a)

/-- A caller that begins an operation. -/
def begin (r : (op : Operation) × (op.Answer → β)) : Caller β := ⟨⟨r.1, r.1.job, []⟩, r.2⟩

/-- What the caller has asked, and what for. -/
def request (e : Caller β) : (op : Operation) × (op.Answer → β) := ⟨e.task.op, e.use⟩

theorem ended_iff {e : Caller β} : e.task.Ended ↔ e.job.result?.isSome := by
  rw [job, result?_map]
  rfl

theorem forall_ended {es : List (Caller β)} {others : Multiset Task}
    (h : ∀ e ∈ es, e.task.Ended) (hothers : ∀ t ∈ others, t.Ended) :
    ∀ t ∈ (es.map task : Multiset Task) + others, t.Ended := by
  intro t ht
  rcases Multiset.mem_add.mp ht with ht | ht
  · obtain ⟨e, he, rfl⟩ := List.mem_map.mp (Multiset.mem_coe.mp ht)
    exact h e he
  · exact hothers t ht

end Caller

/-- The job of an operation on its way; its answer is marked as one to the operation. -/
def Task.marked (t : Task) : Job ((op : Operation) × op.Answer) :=
  t.job.bind fun a => pure ⟨t.op, a⟩

theorem Task.Nearer.of_jobs {cloud : Cloud} {op : Operation} {job' job : Job op.Answer}
    (own' own : List Event) (h : Relation.TransGen (Job.Nearer cloud) job' job) :
    Relation.TransGen (Task.Nearer cloud) ⟨op, job', own'⟩ ⟨op, job, own⟩ := by
  induction h generalizing own with
  | single h => exact .single (.of_job own' own h)
  | tail _ h ih => exact (ih own).tail (.of_job own own h)

/-- In a list of operations, some have got nearer to their ends. -/
abbrev RoundNearer (cloud : Cloud) : List Task → List Task → Prop :=
  Relation.TransGen (OneOf (Relation.TransGen (Task.Nearer cloud)))

theorem wellFounded_roundNearer (cloud : Cloud) : WellFounded (RoundNearer cloud) :=
  (WellFounded.intro fun _ => OneOf.acc fun t _ =>
    (Task.wellFounded_nearer cloud).transGen.apply t).transGen

theorem OneOf.transGen_tail {β : Type*} {r : β → β → Prop} (a : β) {l' l : List β}
    (h : Relation.TransGen (OneOf r) l' l) :
    Relation.TransGen (OneOf r) (a :: l') (a :: l) :=
  h.lift _ fun _ _ h => h.tail a

namespace Caller

variable {β : Type}

/-- A step of a caller leaves its operation as it is or brings it nearer to its end. -/
theorem exists_step (client : Client) (e : Caller β) (others : Multiset Task) (s : Session) :
    ∃ (e' : Caller β) (s' : Session), Job.step client e.job s = (e'.job, s') ∧
      e'.request = e.request ∧ Relation.ReflTransGen (Advances client)
        (e.task ::ₘ others, s) (e'.task ::ₘ others, s') ∧
      (e' = e ∧ s' = s ∧ (e.task.job.step client s).1 = e.task.job ∨
        Relation.TransGen (Task.Nearer client.cloud) e'.task e.task) := by
  obtain ⟨⟨op, job, own⟩, use⟩ := e
  have hstep : Job.step client (Caller.job ⟨⟨op, job, own⟩, use⟩) s = _ := step_map _ job s
  obtain ⟨events, hm⟩ := step_moves client job s
  rcases step_nearer client job s with hn | ⟨hjob, hs⟩
  · exact ⟨⟨⟨op, (step client job s).1, own ++ events⟩, use⟩, _, hstep, rfl,
      Advances.of_moves hm, Or.inr (Task.Nearer.of_jobs _ _ hn)⟩
  · rw [hjob, hs] at hstep
    exact ⟨⟨⟨op, job, own⟩, use⟩, s, hstep, rfl, .refl, Or.inl ⟨rfl, rfl, hjob⟩⟩

/-- A round leaves all operations as they are or brings some nearer to their ends. -/
theorem exists_round (client : Client) (es : List (Caller β)) (others : Multiset Task)
    (s : Session) : ∃ (es' : List (Caller β)) (s' : Session),
      Job.round client (es.map job) s = (es'.map job, s') ∧ es'.map request = es.map request ∧
      Relation.ReflTransGen (Advances client) (↑(es.map task) + others, s)
        (↑(es'.map task) + others, s') ∧
      (es' = es ∧ s' = s ∧ (∀ e ∈ es, (e.task.job.step client s).1 = e.task.job) ∨
        RoundNearer client.cloud (es'.map task) (es.map task)) := by
  induction es generalizing s others with
  | nil => exact ⟨[], s, rfl, rfl, .refl, Or.inl ⟨rfl, rfl, by simp⟩⟩
  | cons e es ih =>
    obtain ⟨e', s₁, hstep, hrequest, hr, he⟩ := e.exists_step client (↑(es.map task) + others) s
    -- To the others, the one that has gone on is one of the rest.
    obtain ⟨es', s', hround, hrequests, hr', hes⟩ := ih (e'.task ::ₘ others) s₁
    rw [Multiset.add_cons, Multiset.add_cons] at hr'
    refine ⟨e' :: es', s', ?_, ?_, ?_, ?_⟩
    · rw [List.map_cons, Job.round, hstep]
      simp only [hround, List.map_cons]
    · rw [List.map_cons, List.map_cons, hrequest, hrequests]
    · simp only [List.map_cons, ← Multiset.cons_coe, Multiset.cons_add]
      exact hr.trans hr'
    · rcases he with ⟨rfl, rfl, he⟩ | he
      · rcases hes with ⟨rfl, rfl, hes⟩ | hes
        · exact Or.inl ⟨rfl, rfl, List.forall_mem_cons.mpr ⟨he, hes⟩⟩
        · exact Or.inr (OneOf.transGen_tail e'.task hes)
      · have hhead : RoundNearer client.cloud (e'.task :: es.map task) (e.task :: es.map task) :=
          .single (.head he _)
        rcases hes with ⟨rfl, -, -⟩ | hes
        · exact Or.inr hhead
        · exact Or.inr ((OneOf.transGen_tail e'.task hes).trans hhead)

end Caller

namespace Run

variable {client : Client} {log : List Event} {s : Session}

/-- Where a round leaves all operations as they are, they have ended. -/
theorem ended_of_round {ts : List Task} {others : Multiset Task}
    (h : Run client log (ts + others) s) (hopen : ∀ t ∈ (ts : Multiset Task) + others, t.op.Open s)
    (hothers : ∀ t ∈ others, t.Ended) (hts : ∀ t ∈ ts, (t.job.step client s).1 = t.job) :
    ∀ t ∈ ts, t.Ended := by
  intro t ht
  by_contra hne
  have hleaves := leaves_ne_zero_of_step t.job (hts t ht) (by simpa [Task.Ended] using hne)
  obtain ⟨r, hr⟩ := Multiset.exists_mem_of_ne_zero hleaves
  have hmem : r ∈ readersIn (ts + others) := mem_readersIn.mpr ⟨t, by simp [ht], hr⟩
  have hz : readersIn (ts + others) ≠ 0 := fun hz => by simp [hz] at hmem
  obtain ⟨r, hr, ha⟩ := h.traffic.1.exists_awake (h.caches_lt hopen) hz
  obtain ⟨t', ht', hleaf⟩ := mem_readersIn.mp hr
  rcases Multiset.mem_add.mp ht' with ht' | ht'
  · exact not_awake_of_step t'.job (hts t' (by simpa using ht')) r hleaf ha
  · exact Task.not_ended_of_mem_leaves hleaf (hothers t' ht')

end Run

/-- Jobs that have all ended need no more rounds. -/
theorem Job.rounds_of_ended {client : Client} {α : Type} {jobs : List (Job α)}
    (h : ∀ job ∈ jobs, job.result?.isSome) (n : Nat) (s : Session) :
    rounds client n jobs s = (jobs, s) := by
  cases n with
  | zero => rfl
  | succ n => rw [rounds, if_pos (List.all_eq_true.mpr h)]

/-- The first round of a job on its own is a step of it, also if it has ended. -/
theorem Job.rounds_singleton (client : Client) {α : Type} (n : Nat) (job : Job α) (s : Session) :
    rounds client (n + 1) [job] s
      = rounds client n [(step client job s).1] (step client job s).2 := by
  rw [rounds]
  split
  · next hended =>
    obtain ⟨r, hr⟩ := Option.isSome_iff_exists.mp
      (List.all_eq_true.mp hended _ List.mem_cons_self)
    rw [result?_eq_some.mp hr, step, rounds_of_ended (List.forall_mem_singleton.mpr rfl)]
  · rfl

/-- **After enough rounds all operations have ended**: the rounds are one of the orders in which
operations may go on. -/
theorem Run.exists_rounds_reached {client : Client} {log : List Event} {β : Type}
    {es : List (Caller β)} {others : Multiset Task} {s : Session}
    (h : Run client log (↑(es.map Caller.task) + others) s)
    (hopen : ∀ t ∈ (es.map Caller.task : Multiset Task) + others, t.op.Open s)
    (hothers : ∀ t ∈ others, t.Ended) : ∃ n, ∀ m ≥ n, ∃ (es' : List (Caller β)) (s' : Session),
      Job.rounds client m (es.map Caller.job) s = (es'.map Caller.job, s') ∧
      es'.map Caller.request = es.map Caller.request ∧
      Relation.ReflTransGen (Advances client) (↑(es.map Caller.task) + others, s)
        (↑(es'.map Caller.task) + others, s') ∧ ∀ e ∈ es', e.task.Ended := by
  induction hts : es.map Caller.task using (wellFounded_roundNearer client.cloud).induction
    generalizing es log s with
  | _ ts ih =>
    subst hts
    by_cases hend : ∀ e ∈ es, e.task.Ended
    · have hjobs : ∀ job ∈ es.map Caller.job, job.result?.isSome := by
        intro job hj
        obtain ⟨e, he, rfl⟩ := List.mem_map.mp hj
        exact Caller.ended_iff.mp (hend e he)
      exact ⟨0, fun m _ => ⟨es, s, rounds_of_ended hjobs m s, rfl, .refl, hend⟩⟩
    · obtain ⟨es₁, s₁, hround, hrequests, hr, hes⟩ := Caller.exists_round client es others s
      rcases hes with ⟨rfl, rfl, hes⟩ | hes
      · have hended := h.ended_of_round hopen hothers (by simpa using hes)
        exact absurd (by simpa using hended) hend
      · obtain ⟨⟨log₁, h₁⟩, hopen₁⟩ := Run.reached (x := (_, s)) h hopen hr
        obtain ⟨n, hn⟩ := ih _ hes h₁ hopen₁ rfl
        refine ⟨n + 1, fun m hm => ?_⟩
        obtain ⟨m, rfl⟩ : ∃ m', m = m' + 1 := ⟨m - 1, by omega⟩
        have hall : ¬ (es.map Caller.job).all (·.result?.isSome) := by
          intro hall
          refine hend fun e he => Caller.ended_iff.mpr ?_
          exact List.all_eq_true.mp hall _ (List.mem_map_of_mem he)
        obtain ⟨es', s', hrounds, hrequests', hr', hend'⟩ := hn m (by omega)
        rw [rounds, if_neg hall, hround]
        exact ⟨es', s', hrounds, hrequests'.trans hrequests, hr.trans hr', hend'⟩

/-- After enough rounds all operations have ended, and all locks are free. -/
theorem Run.exists_rounds {client : Client} {log : List Event} {ts : List Task}
    {others : Multiset Task} {s : Session} (h : Run client log (ts + others) s)
    (hopen : ∀ t ∈ (ts : Multiset Task) + others, t.op.Open s)
    (hothers : ∀ t ∈ others, t.Ended) : ∃ n, ∀ m ≥ n,
      (∀ job ∈ (Job.rounds client m (ts.map Task.marked) s).1, job.result?.isSome) ∧
        (Job.rounds client m (ts.map Task.marked) s).2.Free := by
  let es : List (Caller ((op : Operation) × op.Answer)) := ts.map fun t => ⟨t, fun a => ⟨t.op, a⟩⟩
  have htasks : es.map Caller.task = ts := by
    rw [List.map_map]
    exact List.map_id ts
  have hjobs : es.map Caller.job = ts.map Task.marked := List.map_map
  rw [← htasks] at h hopen
  obtain ⟨n, hn⟩ := h.exists_rounds_reached hopen hothers
  refine ⟨n, fun m hm => ?_⟩
  obtain ⟨es', s', hrounds, -, hr, hend⟩ := hn m hm
  obtain ⟨⟨log', h'⟩, -⟩ := Run.reached (x := (_, s)) h hopen hr
  rw [← hjobs, hrounds]
  refine ⟨fun job hj => ?_, h'.free (Caller.forall_ended hend hothers)⟩
  obtain ⟨e, he, rfl⟩ := List.mem_map.mp hj
  exact Caller.ended_iff.mp (hend e he)

/-- Operations may begin together. -/
theorem Run.begun_all {client : Client} {log : List Event} {tasks : Multiset Task} {s : Session}
    (h : Run client log tasks s) (ops : List Operation) :
    Run client log ((ops.map fun op => ⟨op, op.job, []⟩ : List Task) + tasks) s := by
  induction ops with
  | nil => simpa using h
  | cons op ops ih =>
    rw [List.map_cons, ← Multiset.cons_coe, Multiset.cons_add]
    exact .begun op ih

theorem Operation.open_begun {s : Session} {ops : List Operation} {others : Multiset Task}
    (hops : ∀ op ∈ ops, op.Open s) (hothers : ∀ t ∈ others, t.op.Open s) :
    ∀ t ∈ ((ops.map fun op => ⟨op, op.job, []⟩ : List Task) : Multiset Task) + others,
      t.op.Open s := by
  intro t ht
  rcases Multiset.mem_add.mp ht with ht | ht
  · obtain ⟨op, hop, rfl⟩ := List.mem_map.mp (Multiset.mem_coe.mp ht)
    exact hops op hop
  · exact hothers t ht

/-- After enough rounds all operations that begin together have ended. -/
theorem Run.exists_rounds_begun {client : Client} {log : List Event} {others : Multiset Task}
    {s : Session} (h : Run client log others s) (hopen : ∀ t ∈ others, t.op.Open s)
    (hothers : ∀ t ∈ others, t.Ended) {β : Type}
    {requests : List ((op : Operation) × (op.Answer → β))}
    (hrequests : ∀ r ∈ requests, r.1.Open s) :
    ∃ n, ∀ m ≥ n, ∃ (es : List (Caller β)) (s' : Session),
      Job.rounds client m (requests.map fun r => (Caller.begin r).job) s
        = (es.map Caller.job, s') ∧
      es.map Caller.request = requests ∧
      Relation.ReflTransGen (Advances client)
        (((requests.map Sigma.fst).map fun op => ⟨op, op.job, []⟩ : List Task) + others, s)
        (↑(es.map Caller.task) + others, s') ∧ ∀ e ∈ es, e.task.Ended := by
  let ops : List Operation := requests.map Sigma.fst
  have hops : ∀ op ∈ ops, op.Open s := by
    intro op hop
    obtain ⟨r, hr, rfl⟩ := List.mem_map.mp hop
    exact hrequests r hr
  have htasks : (requests.map Caller.begin).map Caller.task
      = ops.map fun op => ⟨op, op.job, []⟩ := by
    rw [List.map_map, List.map_map]
    rfl
  have hsame : (requests.map Caller.begin).map Caller.request = requests := by
    rw [List.map_map]
    exact List.map_id requests
  have hrun := h.begun_all ops
  have hopen' := Operation.open_begun hops hopen
  rw [← htasks] at hrun hopen'
  obtain ⟨n, hn⟩ := hrun.exists_rounds_reached hopen' hothers
  rw [hsame, htasks, List.map_map] at hn
  exact ⟨n, hn⟩

/-- Where only the first stack has been opened, nothing is under way. -/
theorem Task.first_idle (nested : Dict NestedStack) (s : Session) :
    ∀ t ∈ Task.first nested ::ₘ 0, t.op.Open s ∧ t.Ended := by
  intro t ht
  obtain rfl : t = Task.first nested := Multiset.mem_singleton.mp ht
  exact ⟨fun _ hid => (nomatch hid), rfl⟩

/-- **No operation waits for ever.** In every state that can come about, with whatever requests
failing and whatever parts and operations called off:

* if an operation has not ended, one of those that have not ended has a request of its own under
  way, or can go on at once
* whoever holds a lock or waits for one is a reader of an operation that has not ended
* if something goes on as long as something can, in whatever order, the operations all end, and then
  all locks are free
* in particular, when operations begin together and go on in rounds, they all end, and then all
  locks are free -/
theorem Run.completes {client : Client} {log : List Event} {tasks : Multiset Task} {s : Session}
    (h : Run client log tasks s) (hopen : ∀ t ∈ tasks, t.op.Open s) :
    ((∃ t ∈ tasks, ¬ t.Ended) → ∃ t ∈ tasks, ¬ t.Ended ∧ (t.InFlight ∨ t.Runnable client s)) ∧
      (∀ id c kind ticket, s.caches[id]? = some c → ticket ∈ (c.lock kind).queue →
        ∃ t ∈ tasks, ¬ t.Ended ∧ ∃ r ∈ t.job.leaves, r.caches = id ∧ r.query.kind = kind ∧
          r.phase.ticket? = some ticket) ∧
      (∀ state : Nat → Multiset Task × Session, state 0 = (tasks, s) →
        (∀ n, Advances client (state n) (state (n + 1)) ∨ ∀ x, ¬ Advances client (state n) x) →
        ∃ n, (∀ t ∈ (state n).1, t.Ended) ∧ (state n).2.Free) ∧
      ((∀ t ∈ tasks, t.Ended) → ∀ ops : List Operation, (∀ op ∈ ops, op.Open s) →
        ∃ n, ∀ m ≥ n, ∃ jobs s', Job.rounds client m (ops.map Operation.marked) s = (jobs, s') ∧
          (∀ job ∈ jobs, job.result?.isSome) ∧ s'.Free) := by
  refine ⟨fun hne => ?_, fun id c kind ticket hc ht => h.exists_of_mem_queue hc ht,
    fun state hstart hstate => h.exists_ended hopen hstart hstate, fun hend ops hops => ?_⟩
  · obtain ⟨t, ht, hend, fetching, hm, hfetching⟩ := h.exists_canMove hopen hne
    refine ⟨t, ht, hend, ?_⟩
    cases fetching with
    | true => exact Or.inl (hfetching rfl)
    | false =>
      obtain ⟨events, job, s', hm, hn, he⟩ := hm
      exact Or.inr ⟨events, job, s', hm, hn.ne, he rfl⟩
  · obtain ⟨n, hn⟩ := (h.begun_all ops).exists_rounds (Operation.open_begun hops hopen) hend
    have hjobs : (ops.map fun op => (⟨op, op.job, []⟩ : Task)).map Task.marked
        = ops.map Operation.marked := by
      rw [List.map_map]
      rfl
    rw [hjobs] at hn
    exact ⟨n, fun m hm => ⟨_, _, rfl, (hn m hm).1, (hn m hm).2⟩⟩

/-- Two questions for the URL suffix: one has asked the cloud, the other waits. -/
theorem completes_of_two_readers : ∃ log tasks s t, Run ⟨{}, .none⟩ log tasks s ∧ t ∈ tasks ∧
    (∃ r ∈ t.job.leaves, r.phase = .waiting 1) ∧
    ∃ u ∈ tasks, ¬ u.Ended ∧ (u.InFlight ∨ u.Runnable ⟨{}, .none⟩ s) := by
  let client : Client := ⟨{}, .none⟩
  let op : Operation := .query 0 .urlSuffix
  let asked : Event := .asked 0 (.urlSuffix "region") 1
  let t (p : Phase) (own : List Event) : Task :=
    ⟨op, Job.ask 0 .urlSuffix p fun a => pure a, own⟩
  let s : Session := ⟨{ urlSuffix := 1 }, [{ stack := "stack", region := "region",
                                             urlSuffix := ⟨none, (Lock.enter {}).2.enter.2⟩ }]⟩
  have h : Run client [asked]
      (t (.fetching 0 1 none) [asked] ::ₘ t (.waiting 1) [] ::ₘ Task.first [] ::ₘ 0) s :=
    Run.two_readers client op op rfl rfl
  have hop : op.Open s := fun id hid => Option.some.inj hid ▸ Nat.zero_lt_one
  have hopen : ∀ u ∈ t (.fetching 0 1 none) [asked] ::ₘ t (.waiting 1) [] ::ₘ
      Task.first [] ::ₘ 0, u.op.Open s := by
    have hopener : (Task.first []).op.Open s := fun _ hid => nomatch hid
    simp only [Multiset.forall_mem_cons]
    exact ⟨hop, hop, hopener, fun _ hu => absurd hu (Multiset.notMem_zero _)⟩
  have hwaits : t (.waiting 1) [] ∈ t (.fetching 0 1 none) [asked] ::ₘ t (.waiting 1) [] ::ₘ
      Task.first [] ::ₘ 0 := Multiset.mem_cons_of_mem (Multiset.mem_cons_self _ _)
  have hleaf : (⟨0, .urlSuffix, .waiting 1⟩ : Reader) ∈ (t (.waiting 1) []).job.leaves :=
    Multiset.mem_singleton_self _
  exact ⟨_, _, _, _, h, hwaits, ⟨_, hleaf, rfl⟩,
    (Run.completes h hopen).1 ⟨_, hwaits, Task.not_ended_of_mem_leaves hleaf⟩⟩

end StackExpr
