import StackExpr.Job.Run
import StackExpr.Proofs.Traffic
/-!
# The moves of a job

`Job.Move` lists what a job can do next, one thing at a time: any reader in it may go on, a `gather`
may go on with its values or be called off for one of its parts, an `attempt` may go on. When there
is a choice every move is possible; in particular the parts of a `gather` go on in any order, and
other jobs may move in between.

The readers in a job are its leaves. **A move is traffic of the session, and so is calling a job
off** (`Job.Move.traffic`, `Job.traffic_cancel`), as long as what a job goes on with has not begun
before (`Job.Orderly`).
-/

namespace StackExpr

namespace Session

/-- What happens when a reader goes on at the caches with a number. -/
def events (s : Session) (client : Client) (id : Nat) (q : Query) (p : Phase)
    (progress : Progress q.Answer) : List Event :=
  match s.caches[id]? with
  | some c => c.events client id q p progress
  | none => []

/-- A reader goes on at its caches; where none were opened, it stays as it is. -/
theorem advance_cases {s s' : Session} {client : Client} {id : Nat} {q : Query} {p : Phase}
    {progress : Progress q.Answer} (h : s.advance client id p q = (progress, s')) :
    (∃ c c' made, s.caches[id]? = some c ∧
      c.advance client p s.requests q = (progress, c', made) ∧ s' = ⟨made, s.caches.set id c'⟩ ∧
      s.events client id q p progress = c.events client id q p progress) ∨
    (s.caches[id]? = none ∧ progress = .suspended p ∧ s' = s ∧
      s.events client id q p progress = []) := by
  unfold advance at h
  unfold events
  split at h
  · next c hc =>
    rw [hc]
    obtain ⟨rfl, rfl⟩ := h
    exact Or.inl ⟨c, _, _, rfl, rfl, rfl, rfl⟩
  · next hc =>
    rw [hc]
    obtain ⟨rfl, rfl⟩ := h
    exact Or.inr ⟨rfl, rfl, rfl, rfl⟩

end Session

namespace Job

/-! ## Jobs that have ended -/

theorem value?_eq_some {α : Type} {job : Job α} {v : α} :
    job.value? = some v ↔ job = done (.ok v) := by
  cases job with
  | done r => cases r <;> simp [value?, result?]
  | _ => simp [value?, result?]

/-- The values of parts that all have one. -/
theorem mapM_value?_eq_some {parts : List (Job Json)} {vs : List Json} :
    parts.mapM value? = some vs ↔ parts = vs.map fun v => done (.ok v) := by
  induction parts generalizing vs with
  | nil => cases vs <;> simp
  | cons part parts ih =>
    cases vs with
    | nil => simp [List.mapM_cons, Option.bind_eq_some_iff]
    | cons v vs => simp [List.mapM_cons, Option.bind_eq_some_iff, value?_eq_some, ih]

/-! ## The readers in a job -/

mutual

/-- The readers in a job. -/
def leaves : {α : Type} → Job α → Multiset Reader
  | _, done _ => 0
  | _, openStack _ _ _ => 0
  | _, ask id q phase _ => {⟨id, q, phase⟩}
  | _, gather parts _ => leavesAll parts
  | _, attempt part _ => leaves part

/-- The readers in the jobs of a list. -/
def leavesAll : List (Job Json) → Multiset Reader
  | [] => 0
  | job :: jobs => leaves job + leavesAll jobs

end

theorem leavesAll_done (vs : List Json) : leavesAll (vs.map fun v => done (.ok v)) = 0 := by
  induction vs with
  | nil => rfl
  | cons v vs ih => rw [List.map_cons, leavesAll, leaves, ih, zero_add]

theorem leavesAll_append (before after : List (Job Json)) :
    leavesAll (before ++ after) = leavesAll before + leavesAll after := by
  induction before with
  | nil => rw [List.nil_append, leavesAll, zero_add]
  | cons job before ih => rw [List.cons_append, leavesAll, leavesAll, ih, add_assoc]

theorem leavesAll_perm {jobs jobs' : List (Job Json)} (h : jobs.Perm jobs') :
    leavesAll jobs = leavesAll jobs' := by
  induction h with
  | nil => rfl
  | cons job h ih => rw [leavesAll, leavesAll, ih]
  | swap job job' jobs => simp only [leavesAll, add_left_comm]
  | trans h₁ h₂ ih₁ ih₂ => exact ih₁.trans ih₂

mutual

/-- What the job goes on with has not begun, however far the job itself is. -/
def Orderly : {α : Type} → Job α → Prop
  | _, done _ => True
  | _, openStack _ _ next => ∀ id, Orderly (next id) ∧ ∀ r ∈ leaves (next id), r.phase = .arriving
  | _, ask _ _ _ next => ∀ a, Orderly (next a) ∧ ∀ r ∈ leaves (next a), r.phase = .arriving
  | _, gather parts next =>
    OrderlyAll parts ∧ ∀ vs, Orderly (next vs) ∧ ∀ r ∈ leaves (next vs), r.phase = .arriving
  | _, attempt part next =>
    Orderly part ∧ ∀ v, Orderly (next v) ∧ ∀ r ∈ leaves (next v), r.phase = .arriving

/-- What the jobs of a list go on with has not begun. -/
def OrderlyAll : List (Job Json) → Prop
  | [] => True
  | job :: jobs => Orderly job ∧ OrderlyAll jobs

end

theorem orderlyAll_append {before after : List (Job Json)} :
    OrderlyAll (before ++ after) ↔ OrderlyAll before ∧ OrderlyAll after := by
  induction before with
  | nil => simp [OrderlyAll]
  | cons job before ih => rw [List.cons_append, OrderlyAll, OrderlyAll, ih, and_assoc]

/-- Nothing of the job has begun. -/
def Idle {α : Type} (job : Job α) : Prop :=
  job.Orderly ∧ ∀ r ∈ job.leaves, r.phase = .arriving

/-! ## Moves -/

/-- The moves of a job: the job and the session before, what happens, and the job and the session
after. -/
inductive Move (client : Client) :
    {α : Type} → Job α → Session → List Event → Job α → Session → Prop where
  /-- A stack is opened. -/
  | opened {α : Type} {s : Session} (stack region : String) (next : Nat → Job α) :
    Move client (openStack stack region next) s [] (next (s.openStack stack region).1)
      (s.openStack stack region).2
  /-- A reader has its answer. -/
  | answered {α : Type} {s s' : Session} {id : Nat} {q : Query} {p : Phase}
    {next : q.Answer → Job α} {a : q.Answer} (h : s.advance client id p q = (.ready a, s')) :
    Move client (ask id q p next) s (s.events client id q p (.ready a)) (next a) s'
  /-- A reader's request fails. -/
  | refused {α : Type} {s s' : Session} {id : Nat} {q : Query} {p : Phase}
    {next : q.Answer → Job α} {message : String}
    (h : s.advance client id p q = (.failed message, s')) :
    Move client (ask id q p next) s (s.events client id q p (.failed message))
      (done (.error (.client message))) s'
  /-- A reader goes on and waits. -/
  | suspended {α : Type} {s s' : Session} {id : Nat} {q : Query} {p p' : Phase}
    {next : q.Answer → Job α} (h : s.advance client id p q = (.suspended p', s')) :
    Move client (ask id q p next) s (s.events client id q p (.suspended p')) (ask id q p' next) s'
  /-- A part of a `gather` moves. -/
  | part {α : Type} {s s' : Session} {events : List Event} {job job' : Job Json}
    {next : List Json → Job α} (before after : List (Job Json))
    (h : Move client job s events job' s') :
    Move client (gather (before ++ job :: after) next) s events
      (gather (before ++ job' :: after) next) s'
  /-- All parts have their values. -/
  | gathered {α : Type} {s : Session} {parts : List (Job Json)} {next : List Json → Job α}
    {vs : List Json} (h : parts.mapM value? = some vs) :
    Move client (gather parts next) s [] (next vs) s
  /-- A part has failed and counts; the others are called off, one after the other. -/
  | calledOff {α : Type} {s : Session} {before after : List (Job Json)} {e : Failure}
    {next : List Json → Job α} (order : List (Job Json)) (ho : order.Perm (before ++ after))
    (hc : (before ++ done (.error e) :: after).length ≤ shortLength ∨
      ∀ job ∈ before, job.value?.isSome) :
    Move client (gather (before ++ done (.error e) :: after) next) s [] (done (.error e))
      (cancelAll order s)
  /-- The part of an `attempt` moves. -/
  | attempting {α : Type} {s s' : Session} {events : List Event} {job job' : Job Json}
    {next : Except EvalError Json → Job α} (h : Move client job s events job' s') :
    Move client (attempt job next) s events (attempt job' next) s'
  /-- The part of an `attempt` has a value or none for want of one. -/
  | attempted {α : Type} {s : Session} {next : Except EvalError Json → Job α}
    (r : Except EvalError Json) :
    Move client (attempt (done (r.mapError .evaluation)) next) s [] (next r) s
  /-- The part of an `attempt` has failed for another reason. -/
  | abandoned {α : Type} {s : Session} {next : Except EvalError Json → Job α} {e : Failure}
    (h : ∀ e', e ≠ .evaluation e') :
    Move client (attempt (done (.error e)) next) s [] (done (.error e)) s

/-! ## Moves as traffic -/

section Traffic

variable {client : Client} {log : List Event} {readers : Multiset Reader}

/-- Readers may arrive together. -/
theorem traffic_of_arriving {s : Session} {arriving : Multiset Reader}
    (ha : ∀ r ∈ arriving, r.phase = .arriving) (h : Traffic client log readers s) :
    Traffic client log (arriving + readers) s := by
  induction arriving using Multiset.induction with
  | empty => rwa [zero_add]
  | cons r arriving ih =>
    obtain ⟨id, q, p⟩ := r
    obtain rfl : p = .arriving := ha _ (Multiset.mem_cons_self _ _)
    rw [Multiset.cons_add]
    exact .arrived id q (ih fun r hr => ha r (Multiset.mem_cons_of_mem hr))

/-- A reader goes on, whether its caches were opened or not. -/
theorem traffic_of_advance {s s' : Session} {id : Nat} {q : Query} {p : Phase}
    {progress : Progress q.Answer} (ha : s.advance client id p q = (progress, s'))
    (h : Traffic client log (⟨id, q, p⟩ ::ₘ readers) s) :
    Traffic client (log ++ s.events client id q p progress)
      ((⟨id, q, p⟩ : Reader).after progress + readers) s' := by
  rcases Session.advance_cases ha with ⟨c, c', made, hc, hadv, rfl, he⟩ | ⟨-, rfl, rfl, he⟩
  · rw [he]
    exact .advanced hc hadv h
  · rw [he, List.append_nil]
    exact h

mutual

/-- **Calling a job off takes its readers away.** -/
theorem traffic_cancel {readers : Multiset Reader} : {α : Type} → (job : Job α) → (s : Session) →
    Traffic client log (job.leaves + readers) s → Traffic client log readers (job.cancel s)
  | _, done _, _, h => by rwa [leaves, zero_add] at h
  | _, openStack _ _ _, _, h => by rwa [leaves, zero_add] at h
  | _, ask _ _ _ _, _, h => by
    rw [leaves, Multiset.singleton_add] at h
    exact .left h
  | _, gather parts _, s, h => traffic_cancelAll parts s h
  | _, attempt part _, s, h => traffic_cancel part s h

theorem traffic_cancelAll {readers : Multiset Reader} : (jobs : List (Job Json)) → (s : Session) →
    Traffic client log (leavesAll jobs + readers) s → Traffic client log readers (cancelAll jobs s)
  | [], _, h => by rwa [leavesAll, zero_add] at h
  | job :: jobs, s, h => by
    rw [leavesAll, add_assoc] at h
    exact traffic_cancelAll jobs _ (traffic_cancel job s h)

end

/-- After a move, what the job goes on with has still not begun. -/
theorem Move.orderly {α : Type} {job job' : Job α} {s s' : Session} {events : List Event}
    (hm : Move client job s events job' s') (ho : job.Orderly) : job'.Orderly := by
  induction hm with
  | opened stack region next => exact (ho _).1
  | answered ha => exact (ho _).1
  | refused ha => trivial
  | suspended ha => exact ho
  | part before after hm ih =>
    obtain ⟨ho, hnext⟩ := ho
    obtain ⟨hbefore, hjob, hafter⟩ := orderlyAll_append.mp ho
    exact ⟨orderlyAll_append.mpr ⟨hbefore, ih hjob, hafter⟩, hnext⟩
  | gathered hvs => exact (ho.2 _).1
  | calledOff order hperm hc => trivial
  | attempting hm ih => exact ⟨ih ho.1, ho.2⟩
  | attempted r => exact (ho.2 _).1
  | abandoned he => trivial

/-- **A move is traffic.** -/
theorem Move.traffic {α : Type} {job job' : Job α} {s s' : Session} {events : List Event}
    (hm : Move client job s events job' s') (ho : job.Orderly)
    (h : Traffic client log (job.leaves + readers) s) :
    Traffic client (log ++ events) (job'.leaves + readers) s' := by
  -- To a part that moves, the readers in the other parts are readers of other jobs.
  induction hm generalizing readers with
  | opened stack region next =>
    rw [leaves, zero_add] at h
    rw [List.append_nil]
    exact traffic_of_arriving (ho _).2 (.opened stack region h)
  | answered ha =>
    rw [leaves, Multiset.singleton_add] at h
    have h' := traffic_of_advance ha h
    exact traffic_of_arriving (ho _).2 (by simpa [Reader.after, Progress.phase?] using h')
  | refused ha =>
    rw [leaves, Multiset.singleton_add] at h
    exact traffic_of_advance ha h
  | suspended ha =>
    rw [leaves, Multiset.singleton_add] at h
    exact traffic_of_advance ha h
  | @part _ s s' events job job' next before after hm ih =>
    have hleaves : ∀ job : Job Json, leavesAll (before ++ job :: after) + readers
        = job.leaves + (leavesAll before + leavesAll after + readers) := fun job => by
      rw [leavesAll_append, leavesAll, add_left_comm, add_assoc]
    obtain ⟨-, hjob, -⟩ := orderlyAll_append.mp ho.1
    rw [leaves, hleaves] at h ⊢
    exact ih hjob h
  | @gathered _ s parts next vs hvs =>
    -- Parts that have their values have no readers any more.
    rw [leaves, mapM_value?_eq_some.mp hvs, leavesAll_done, zero_add] at h
    rw [List.append_nil]
    exact traffic_of_arriving (ho.2 _).2 h
  | @calledOff _ s before after e next order hperm hc =>
    rw [leaves, leavesAll_append, leavesAll, leaves, zero_add, ← leavesAll_append,
      ← leavesAll_perm hperm] at h
    rw [List.append_nil, leaves, zero_add]
    exact traffic_cancelAll order s h
  | attempting hm ih => exact ih ho.1 h
  | attempted r =>
    rw [leaves, leaves, zero_add] at h
    rw [List.append_nil]
    exact traffic_of_arriving (ho.2 _).2 h
  | abandoned he =>
    rw [List.append_nil]
    exact h

end Traffic

end Job

end StackExpr
