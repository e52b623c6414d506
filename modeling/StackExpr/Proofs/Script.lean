import StackExpr.Proofs.Run
/-!
# Jobs that do operations one after the other

Some jobs only put operations, one after the other: the next one may depend on what the others were
answered with. A `Script` says which, and `Script.job` is the job that does the same on its own.
**An operation with such a job may be replaced by the operations of the script**, in any run: they
are put one after the other, and leave the same log and the same session (`Run.replaced`). What the
operation has ended with is what the script makes of their answers (`Script.Ends`).
-/

namespace StackExpr

open Job

/-! ## Moves of a job that goes on with the value of another -/

namespace Job

variable {α β : Type} {client : Client} {s s' : Session} {events : List Event}

theorem bind_eq_done {job : Job α} {f : α → Job β} {r : Except Failure β}
    (h : job.bind f = .done r) : (∃ e, job = .done (.error e) ∧ r = .error e) ∨
      ∃ a, job = .done (.ok a) ∧ f a = .done r := by
  cases job with
  | done ended =>
    cases ended with
    | ok a => exact Or.inr ⟨a, rfl, h⟩
    | error e =>
      cases h
      exact Or.inl ⟨e, rfl, rfl⟩
  | openStack stack region next => cases h
  | ask id q phase next => cases h
  | gather parts next => cases h
  | attempt part next => cases h

/-- The moves of a job are moves of what goes on with its value. -/
theorem Move.bind (f : α → Job β) {job job' : Job α} (h : Move client job s events job' s') :
    Move client (job.bind f) s events (job'.bind f) s' := by
  cases h with
  | opened stack region next => exact .opened stack region _
  | answered ha => exact .answered ha
  | refused ha => exact .refused ha
  | suspended ha => exact .suspended ha
  | part before after hm => exact .part before after hm
  | gathered hvs => exact .gathered hvs
  | calledOff order ho hc => exact .calledOff order ho hc
  | attempting hm => exact .attempting hm
  | attempted r => exact .attempted r
  | abandoned hne => exact .abandoned hne

/-- A job that goes on with the value of another moves as the other moves, or the other has a value
and it moves as what it goes on with. -/
theorem Move.of_bind {job : Job α} {f : α → Job β} {job' : Job β}
    (h : Move client (job.bind f) s events job' s') :
    (∃ moved, Move client job s events moved s' ∧ job' = moved.bind f) ∨
      ∃ a, job = .done (.ok a) ∧ Move client (f a) s events job' s' := by
  cases job with
  | done ended =>
    cases ended with
    | ok a => exact Or.inr ⟨a, rfl, h⟩
    | error e => cases h
  | openStack stack region next =>
    cases h
    exact Or.inl ⟨_, .opened stack region next, rfl⟩
  | ask id q phase next =>
    cases h with
    | answered ha => exact Or.inl ⟨_, .answered ha, rfl⟩
    | refused ha => exact Or.inl ⟨_, .refused ha, rfl⟩
    | suspended ha => exact Or.inl ⟨_, .suspended ha, rfl⟩
  | gather parts next =>
    cases h with
    | part before after hm => exact Or.inl ⟨_, .part before after hm, rfl⟩
    | gathered hvs => exact Or.inl ⟨_, .gathered hvs, rfl⟩
    | calledOff order ho hc => exact Or.inl ⟨_, .calledOff order ho hc, rfl⟩
  | attempt part next =>
    cases h with
    | attempting hm => exact Or.inl ⟨_, .attempting hm, rfl⟩
    | attempted r => exact Or.inl ⟨_, .attempted r, rfl⟩
    | abandoned hne => exact Or.inl ⟨_, .abandoned hne, rfl⟩

end Job

/-! ## Scripts -/

/-- Operations to be put one after the other, and a result in the end. -/
inductive Script (α : Type) : Type where
  | ends (r : Except Failure α)
  | puts (op : Operation) (next : op.Answer → Script α)

namespace Script

variable {α : Type}

/-- The job that does what the operations do. -/
def job : Script α → Job α
  | ends r => .done r
  | puts op next => op.job.bind fun a => (next a).job

/-- The operations of a script that has come to this as one job. -/
inductive Plays : Script α → Job α → List Event → Multiset Task → Prop where
  | ended (r : Except Failure α) : Plays (ends r) (.done r) [] 0
  /-- The first operation is on its way. -/
  | now {op : Operation} {next : op.Answer → Script α} (job : Job op.Answer) (own : List Event) :
    Plays (puts op next) (job.bind fun a => (next a).job) own (⟨op, job, own⟩ ::ₘ 0)
  /-- The first operation has been answered. -/
  | later {op : Operation} {next : op.Answer → Script α} {a : op.Answer} {job : Job α}
    {own own' : List Event} {tasks : Multiset Task} (h : Plays (next a) job own' tasks) :
    Plays (puts op next) job (own ++ own') (⟨op, .done (.ok a), own⟩ ::ₘ tasks)

/-- The operations of a script that has ended with a result: each was answered, or one has failed
and is the last. -/
inductive Ends : Script α → Except Failure α → List Event → Multiset Task → Prop where
  | ended (r : Except Failure α) : Ends (ends r) r [] 0
  | failed {op : Operation} {next : op.Answer → Script α} (e : Failure) (own : List Event) :
    Ends (puts op next) (.error e) own (⟨op, .done (.error e), own⟩ ::ₘ 0)
  | later {op : Operation} {next : op.Answer → Script α} {a : op.Answer} {r : Except Failure α}
    {own own' : List Event} {tasks : Multiset Task} (h : Ends (next a) r own' tasks) :
    Ends (puts op next) r (own ++ own') (⟨op, .done (.ok a), own⟩ ::ₘ tasks)

variable {client : Client} {log : List Event} {others : Multiset Task} {s : Session}

/-- A script may begin at any time. -/
theorem exists_begun (script : Script α) (h : Run client log others s) :
    ∃ pieces, script.Plays script.job [] pieces ∧ Run client log (pieces + others) s := by
  cases script with
  | ends r => exact ⟨0, .ended r, by rwa [zero_add]⟩
  | puts op next => exact ⟨⟨op, op.job, []⟩ ::ₘ 0, .now op.job [], by simpa using Run.begun op h⟩

/-- **A script goes on as its job does.** -/
theorem Plays.exists_moved {script : Script α} {job job' : Job α} {own events : List Event}
    {pieces : Multiset Task} {s' : Session} (hp : script.Plays job own pieces)
    (hm : job.Move client s events job' s') (h : Run client log (pieces + others) s) :
    ∃ pieces', script.Plays job' (own ++ events) pieces' ∧
      Run client (log ++ events) (pieces' + others) s' := by
  induction script generalizing job own pieces others with
  | ends r =>
    cases hp
    cases hm
  | puts op next ih =>
    cases hp with
    | now job own =>
      rw [Multiset.cons_add, zero_add] at h
      rcases hm.of_bind with ⟨moved, hmoved, rfl⟩ | ⟨a, rfl, hmoved⟩
      · refine ⟨⟨op, moved, own ++ events⟩ ::ₘ 0, .now moved (own ++ events), ?_⟩
        rw [Multiset.cons_add, zero_add]
        exact h.moved hmoved
      · -- The first operation has been answered, so the next one begins.
        obtain ⟨begun, hbegun, h⟩ := exists_begun (next a) h
        obtain ⟨pieces', hp', h'⟩ := ih a hbegun hmoved h
        rw [Multiset.add_cons, ← Multiset.cons_add] at h'
        exact ⟨_ ::ₘ pieces', .later hp', h'⟩
    | @later _ _ a _ own own' tasks hp =>
      rw [Multiset.cons_add, ← Multiset.add_cons] at h
      obtain ⟨pieces', hp', h'⟩ := ih a hp hm h
      rw [Multiset.add_cons, ← Multiset.cons_add] at h'
      exact ⟨_ ::ₘ pieces', List.append_assoc own own' events ▸ .later hp', h'⟩

/-- A script whose job has ended has ended. -/
theorem Plays.exists_ended {script : Script α} {r : Except Failure α} {own : List Event}
    {pieces : Multiset Task} (hp : script.Plays (.done r) own pieces)
    (h : Run client log (pieces + others) s) :
    ∃ pieces', script.Ends r own pieces' ∧ Run client log (pieces' + others) s := by
  generalize hjob : Job.done r = job at hp
  induction script generalizing job own pieces others with
  | ends r' =>
    cases hp
    cases hjob
    exact ⟨0, .ended r, h⟩
  | puts op next ih =>
    cases hp with
    | now job own =>
      rw [Multiset.cons_add, zero_add] at h
      rcases bind_eq_done hjob.symm with ⟨e, rfl, rfl⟩ | ⟨a, rfl, hnext⟩
      · refine ⟨⟨op, .done (.error e), own⟩ ::ₘ 0, .failed e own, ?_⟩
        rwa [Multiset.cons_add, zero_add]
      · obtain ⟨begun, hbegun, h⟩ := exists_begun (next a) h
        obtain ⟨pieces', hp', h'⟩ := ih a h _ hnext.symm hbegun
        rw [Multiset.add_cons, ← Multiset.cons_add] at h'
        have hends : (puts op next).Ends r (own ++ []) _ := .later hp'
        rw [List.append_nil] at hends
        exact ⟨_, hends, h'⟩
    | @later _ _ a _ own own' tasks hp =>
      rw [Multiset.cons_add, ← Multiset.add_cons] at h
      obtain ⟨pieces', hp', h'⟩ := ih a h _ hjob hp
      rw [Multiset.add_cons, ← Multiset.cons_add] at h'
      exact ⟨_ ::ₘ pieces', .later hp', h'⟩

end Script

/-! ## Runs -/

section Runs

variable {client : Client} {log : List Event} {tasks others : Multiset Task} {s : Session}

/-- An operation may be replaced by others that can begin with it and go on as it does. What the
others have come to when the operation has come to a job is a matter of theirs. -/
theorem Run.exists_pieces (h : Run client log tasks s) {op : Operation} {job : Job op.Answer}
    {own : List Event} {R : Job op.Answer → List Event → Multiset Task → Prop}
    (hbegin : ∀ {log : List Event} {others : Multiset Task} {s : Session},
      Run client log others s → ∃ pieces, R op.job [] pieces ∧ Run client log (pieces + others) s)
    (hmove : ∀ {job job' : Job op.Answer} {log own events : List Event}
      {pieces others : Multiset Task} {s s' : Session}, R job own pieces →
      job.Move client s events job' s' → Run client log (pieces + others) s →
      ∃ pieces', R job' (own ++ events) pieces' ∧
        Run client (log ++ events) (pieces' + others) s')
    (ht : tasks = ⟨op, job, own⟩ ::ₘ others) :
    ∃ pieces, R job own pieces ∧ Run client log (pieces + others) s := by
  induction h generalizing job own others with
  | start => exact absurd ht (Multiset.zero_ne_cons)
  | @begun log tasks s op' h ih =>
    rcases Multiset.cons_eq_cons.mp ht with ⟨hop, rfl⟩ | ⟨-, rest, rfl, rfl⟩
    · cases hop
      exact hbegin h
    · obtain ⟨pieces, hp, h⟩ := ih rfl
      exact ⟨pieces, hp, by simpa only [Multiset.add_cons] using h.begun op'⟩
  | @moved log events tasks s s' t' job' hm h ih =>
    rcases Multiset.cons_eq_cons.mp ht with ⟨hop, rfl⟩ | ⟨-, rest, rfl, rfl⟩
    · cases hop
      obtain ⟨pieces, hp, h⟩ := ih rfl
      exact hmove hp hm h
    · obtain ⟨pieces, hp, h⟩ := ih (Multiset.cons_swap _ _ _)
      rw [Multiset.add_cons] at h
      exact ⟨pieces, hp, by simpa only [Multiset.add_cons] using h.moved hm⟩
  | @dropped log tasks s t' h ih =>
    subst ht
    obtain ⟨pieces, hp, h⟩ := ih (Multiset.cons_swap _ _ _)
    rw [Multiset.add_cons] at h
    exact ⟨pieces, hp, h.dropped⟩

/-- **An operation that has ended may be replaced by the operations of a script that its job
follows.** The log and the session are the same. -/
theorem Run.replaced {op : Operation} {r : Except Failure op.Answer} {own : List Event}
    {script : Script op.Answer} (h : Run client log (⟨op, .done r, own⟩ ::ₘ others) s)
    (hjob : op.job = script.job) :
    ∃ pieces, script.Ends r own pieces ∧ Run client log (pieces + others) s := by
  obtain ⟨pieces, hp, h⟩ := h.exists_pieces (R := script.Plays)
    (fun h => hjob ▸ script.exists_begun h) (fun hp hm h => hp.exists_moved hm h) rfl
  exact hp.exists_ended h

end Runs

end StackExpr
