import StackExpr.Proofs.Completion
/-!
# What happens since an operation has begun

From the state in which an operation begins on, it moves, others move, others begin, and others are
dropped. `Since` follows the one operation through all of this, with the log of what it has done
itself and the log of everything.

* `Since.run`: what has happened is a run
* `Since.moves`: the operation may go on alone, as it does in rounds (`Job.exists_rounds_moves`)
* `Since.exists_end`: **as long as something goes on whenever something can, the operation comes to
  its end**
-/

namespace StackExpr

open Job

/-- What may have happened since an operation has begun in a state, and how far the operation is:
it moves, and so do others; others begin, and are dropped. -/
inductive Since (client : Client) (op : Operation) (log₀ : List Event) (others₀ : Multiset Task)
    (s₀ : Session) : List Event → Job op.Answer → List Event → Multiset Task → Session → Prop where
  | begun : Since client op log₀ others₀ s₀ log₀ op.job [] others₀ s₀
  | moved {log own events : List Event} {job job' : Job op.Answer} {others : Multiset Task}
    {s s' : Session} (hm : job.Move client s events job' s')
    (h : Since client op log₀ others₀ s₀ log job own others s) :
    Since client op log₀ others₀ s₀ (log ++ events) job' (own ++ events) others s'
  | joined {log own : List Event} {job : Job op.Answer} {others : Multiset Task} {s : Session}
    (op' : Operation) (h : Since client op log₀ others₀ s₀ log job own others s) :
    Since client op log₀ others₀ s₀ log job own (⟨op', op'.job, []⟩ ::ₘ others) s
  | passed {log own events : List Event} {job : Job op.Answer} {others : Multiset Task}
    {s s' : Session} {t : Task} {job' : Job t.op.Answer} (hm : t.job.Move client s events job' s')
    (h : Since client op log₀ others₀ s₀ log job own (t ::ₘ others) s) :
    Since client op log₀ others₀ s₀ (log ++ events) job own
      (⟨t.op, job', t.log ++ events⟩ ::ₘ others) s'
  | left {log own : List Event} {job : Job op.Answer} {others : Multiset Task} {s : Session}
    {t : Task} (h : Since client op log₀ others₀ s₀ log job own (t ::ₘ others) s) :
    Since client op log₀ others₀ s₀ log job own others (t.job.cancel s)

namespace Since

variable {client : Client} {op : Operation} {log₀ log own events : List Event}
  {others₀ others : Multiset Task} {s₀ s s' : Session} {job job' : Job op.Answer}

/-- All that is a run. -/
theorem run (h : Since client op log₀ others₀ s₀ log job own others s)
    (h₀ : Run client log₀ others₀ s₀) : Run client log (⟨op, job, own⟩ ::ₘ others) s := by
  induction h with
  | begun => exact .begun op h₀
  | moved hm _ ih => exact ih.moved hm
  | joined op' _ ih =>
    rw [Multiset.cons_swap]
    exact .begun op' ih
  | passed hm _ ih =>
    rw [Multiset.cons_swap] at ih ⊢
    exact ih.moved hm
  | left _ ih =>
    rw [Multiset.cons_swap] at ih
    exact ih.dropped

/-- An operation may go on alone. -/
theorem moves (h : Since client op log₀ others₀ s₀ log job own others s)
    (hm : job.Moves client s events job' s') :
    Since client op log₀ others₀ s₀ (log ++ events) job' (own ++ events) others s' := by
  induction hm generalizing log own with
  | none job s => rwa [List.append_nil, List.append_nil]
  | cons hm _ ih =>
    rw [← List.append_assoc, ← List.append_assoc]
    exact ih (.moved hm h)

/-- One of the operations goes on. -/
theorem advance {y : Multiset Task × Session}
    (h : Since client op log₀ others₀ s₀ log job own others s)
    (ha : Advances client (⟨op, job, own⟩ ::ₘ others, s) y) :
    ∃ log' job' own' others' s', y = (⟨op, job', own'⟩ ::ₘ others', s') ∧
      Since client op log₀ others₀ s₀ log' job' own' others' s' := by
  obtain ⟨t, rest, events, job', s', htasks, rfl, hm, -⟩ := ha.exists_move
  rcases Multiset.cons_eq_cons.mp htasks with ⟨ht, rfl⟩ | ⟨-, others', rfl, rfl⟩
  · cases ht
    exact ⟨_, _, _, _, _, rfl, h.moved hm⟩
  · rw [Multiset.cons_swap]
    exact ⟨_, _, _, _, _, rfl, h.passed hm⟩

theorem reached {y : Multiset Task × Session}
    (h : Since client op log₀ others₀ s₀ log job own others s)
    (hr : Relation.ReflTransGen (Advances client) (⟨op, job, own⟩ ::ₘ others, s) y) :
    ∃ log' job' own' others' s', y = (⟨op, job', own'⟩ ::ₘ others', s') ∧
      Since client op log₀ others₀ s₀ log' job' own' others' s' := by
  induction hr with
  | refl => exact ⟨log, job, own, others, s, rfl, h⟩
  | tail _ ha ih =>
    obtain ⟨_, _, _, _, _, rfl, h'⟩ := ih
    exact h'.advance ha

/-- As long as something goes on whenever something can, the operation comes to its end. -/
theorem exists_end (h₀ : Run client log₀ others₀ s₀) (hop : op.Open s₀)
    (hopen : ∀ t ∈ others₀, t.op.Open s₀) {state : Nat → Multiset Task × Session}
    (hstart : state 0 = (⟨op, op.job, []⟩ ::ₘ others₀, s₀))
    (hstate : ∀ n, Advances client (state n) (state (n + 1)) ∨ ∀ x, ¬ Advances client (state n) x) :
    ∃ n log r own others, (state n).1 = ⟨op, .done r, own⟩ ::ₘ others ∧
      Since client op log₀ others₀ s₀ log (.done r) own others (state n).2 := by
  obtain ⟨n, hr, hend⟩ := (Run.begun op h₀).exists_reached
    (Multiset.forall_mem_cons.mpr ⟨hop, hopen⟩) hstart hstate
  obtain ⟨log, job, own, others, s, hn, h⟩ := Since.begun.reached hr
  rw [hn] at hend
  obtain ⟨r, hjob⟩ : ∃ r, job.result? = some r := Option.isSome_iff_exists.mp
    (hend ⟨op, job, own⟩ (Multiset.mem_cons_self _ _))
  obtain rfl := result?_eq_some.mp hjob
  refine ⟨n, log, r, own, others, ?_⟩
  rw [hn]
  exact ⟨rfl, h⟩

end Since

/-- The rounds of a single job are moves of it. -/
theorem Job.exists_rounds_moves (client : Client) {α : Type} (n : Nat) (job : Job α) (s : Session) :
    ∃ job' events s', Job.rounds client n [job] s = ([job'], s') ∧
      Moves client job s events job' s' := by
  induction n generalizing job s with
  | zero => exact ⟨job, [], s, rfl, .none job s⟩
  | succ n ih =>
    rw [rounds]
    split
    · exact ⟨job, [], s, rfl, .none job s⟩
    · obtain ⟨events, hm⟩ := step_moves client job s
      obtain ⟨job', events', s', hrounds, hms⟩ := ih (step client job s).1 (step client job s).2
      exact ⟨job', events ++ events', s', hrounds, hm.append hms⟩

end StackExpr
