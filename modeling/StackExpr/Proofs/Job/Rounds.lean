import StackExpr.Proofs.Job.Awake
/-!
# What a step leaves undone

A step goes on with a job as far as it gets. So **if a step leaves a job as it is, the job has ended
or all its readers have to wait** (`Job.not_awake_of_step`, `Job.leaves_ne_zero_of_step`).

A job that goes on with the value of another takes the steps of the other first (`Job.step_bind`).
So what is done with the value of a job at its end makes no difference to its steps
(`Job.step_map`).
-/

namespace StackExpr.Job

variable {client : Client} {s s' : Session} {α β : Type}

/-- What is nearer to its end than a job does not become that job again. -/
theorem step_ne {job job' : Job α} (h : Nearer client.cloud job' job) (s : Session) :
    (step client job' s).1 ≠ job := by
  intro he
  have hwf := (wellFounded_nearer client.cloud α).transGen
  rcases step_nearer client job' s with hn | ⟨hn, -⟩
  · rw [he] at hn
    exact hwf.irrefl.irrefl _ (hn.tail h)
  · rw [he] at hn
    rw [← hn] at h
    exact hwf.irrefl.irrefl _ (.single h)

/-! ## Parts -/

/-- A step that leaves the parts of a `gather` as they are leaves each of them as it is. -/
theorem step_of_stepParts {short settled : Bool} {parts : List (Job Json)}
    (h : stepParts client short settled parts s = (.ok parts, s')) :
    ∀ part ∈ parts, (step client part s).1 = part := by
  induction parts generalizing s settled with
  | nil => exact fun _ hp => absurd hp List.not_mem_nil
  | cons part parts ih =>
    obtain ⟨part', s₁, hstep, hr⟩ := stepParts_cons h
    obtain ⟨e, -, -, he, -⟩ | ⟨r', s₂, hrest, ⟨parts', rfl, hok, rfl⟩ | ⟨e, -, he, -⟩⟩ := hr
    · cases he
    · obtain ⟨rfl, rfl⟩ := List.cons.inj (Except.ok.inj hok)
      -- The part is the same, so the session is, and the others go on from there.
      have hs : s₁ = s := by
        have hn := step_nearer client part s
        rw [hstep] at hn
        rcases hn with hn | ⟨-, hs⟩
        · exact absurd hn ((wellFounded_nearer client.cloud Json).transGen.irrefl.irrefl part)
        · exact hs
      subst hs
      exact List.forall_mem_cons.mpr ⟨congrArg Prod.fst hstep, ih hrest⟩
    · cases he

/-- When the parts of a `gather` have gone on and none of them counts as a failure, those before the
first failure have not all ended. -/
theorem not_failed_of_stepParts {short settled : Bool} {parts parts' : List (Job Json)}
    (h : stepParts client short settled parts s = (.ok parts', s')) (hs : settled = true)
    {before after : List (Job Json)} {e : Failure}
    (hb : ∀ part ∈ before, part.value?.isSome) : parts' ≠ before ++ done (.error e) :: after := by
  induction parts generalizing s s' settled parts' before with
  | nil =>
    obtain ⟨rfl, rfl⟩ := h
    simp
  | cons part parts ih =>
    rintro rfl
    rw [stepParts] at h
    rcases hp : step client part s with ⟨part', s₁⟩
    simp only [hp, hs, Bool.or_true, Bool.true_and] at h
    split at h
    · cases h
    · next hf =>
      rcases hrest : stepParts client short part'.value?.isSome parts s₁ with ⟨r', s₂⟩
      rw [hrest] at h
      cases r' with
      | error e' => cases h
      | ok rest =>
        have hparts := Except.ok.inj (Prod.mk.inj h).1
        cases before with
        | nil =>
          obtain ⟨rfl, rfl⟩ := List.cons.inj hparts
          exact hf e rfl rfl
        | cons b before =>
          obtain ⟨rfl, rfl⟩ := List.cons.inj hparts
          obtain ⟨hvalue, hb⟩ := List.forall_mem_cons.mp hb
          exact ih hrest hvalue hb rfl

/-- A step that leaves a `gather` as it is leaves its parts as they are, and not all of them have
ended. -/
theorem parts_of_step {parts : List (Job Json)} {next : List Json → Job α}
    (h : (step client (gather parts next) s).1 = gather parts next) :
    (∀ part ∈ parts, (step client part s).1 = part) ∧ ∃ part ∈ parts, part.result? = none := by
  rw [step] at h
  split at h
  · cases h
  · next parts' s' hp =>
    split at h
    · next vs hvs => exact absurd h (step_ne (.gathered vs) s')
    · next hvs =>
      obtain ⟨rfl, -⟩ := Job.gather.inj h
      refine ⟨step_of_stepParts hp, ?_⟩
      by_contra hall
      have hall : ∀ part ∈ parts', part.result?.isSome := by
        intro part hpart
        rw [Option.isSome_iff_ne_none]
        exact fun hr => hall ⟨part, hpart, hr⟩
      rcases values_or_failure hall with ⟨vs, hvs'⟩ | ⟨before, e, after, hfailed, hb⟩
      · rw [hvs] at hvs'
        cases hvs'
      · exact not_failed_of_stepParts hp rfl hb hfailed

/-- A step that leaves an `attempt` as it is leaves its part as it is, which has not ended. -/
theorem part_of_step {part : Job Json} {next : Except EvalError Json → Job α}
    (h : (step client (attempt part next) s).1 = attempt part next) :
    (step client part s).1 = part ∧ part.result? = none := by
  rw [step] at h
  rcases hp : step client part s with ⟨part', s'⟩
  simp only [hp] at h
  split at h
  · exact absurd h (step_ne (.attempted _) s')
  · exact absurd h (step_ne (.attempted _) s')
  · cases h
  · next hr =>
    obtain ⟨rfl, -⟩ := Job.attempt.inj h
    exact ⟨rfl, hr⟩

/-! ## Jobs -/

/-- A step that leaves a question as it is has not got an answer. -/
theorem not_awake_of_ask {id : Nat} {q : Query} {p : Phase} {next : q.Answer → Job α}
    (h : (step client (ask id q p next) s).1 = ask id q p next) :
    ¬ (⟨id, q, p⟩ : Reader).Awake client s := by
  intro ha
  rw [step] at h
  split at h
  · next a s' _ => exact step_ne (.answered a) s' h
  · cases h
  · next p' s' hadv =>
    obtain ⟨-, -, rfl, -⟩ := Job.ask.inj h
    exact Nat.lt_irrefl _ (ha p' (congrArg Prod.fst hadv))

mutual

/-- **If a step leaves a job as it is, all its readers have to wait.** -/
theorem not_awake_of_step : {α : Type} → (job : Job α) → (step client job s).1 = job →
    ∀ r ∈ job.leaves, ¬ r.Awake client s
  | _, done _, _ => fun r hr => absurd hr (Multiset.notMem_zero r)
  | _, openStack _ _ _, _ => fun r hr => absurd hr (Multiset.notMem_zero r)
  | _, ask _ _ _ _, h => fun r hr => by
    rw [Multiset.mem_singleton.mp hr]
    exact not_awake_of_ask h
  | _, gather parts _, h => not_awake_of_steps parts (parts_of_step h).1
  | _, attempt part _, h => not_awake_of_step part (part_of_step h).1

theorem not_awake_of_steps : (jobs : List (Job Json)) →
    (∀ job ∈ jobs, (step client job s).1 = job) → ∀ r ∈ leavesAll jobs, ¬ r.Awake client s
  | [], _ => fun r hr => absurd hr (Multiset.notMem_zero r)
  | job :: jobs, h => fun r hr => by
    obtain ⟨hjob, hjobs⟩ := List.forall_mem_cons.mp h
    rcases Multiset.mem_add.mp hr with hr | hr
    · exact not_awake_of_step job hjob r hr
    · exact not_awake_of_steps jobs hjobs r hr

end

mutual

/-- **If a step leaves an unfinished job as it is, the job has readers.** -/
theorem leaves_ne_zero_of_step : {α : Type} → (job : Job α) → (step client job s).1 = job →
    job.result? = none → job.leaves ≠ 0
  | _, done _, _, hr => by cases hr
  | _, openStack _ _ next, h, _ => by
    rw [step] at h
    exact absurd h (step_ne (.opened _) _)
  | _, ask _ _ _ _, _, _ => Multiset.singleton_ne_zero _
  | _, gather parts _, h, _ =>
    leavesAll_ne_zero_of_steps parts (parts_of_step h).1 (parts_of_step h).2
  | _, attempt part _, h, _ =>
    leaves_ne_zero_of_step part (part_of_step h).1 (part_of_step h).2

theorem leavesAll_ne_zero_of_steps : (jobs : List (Job Json)) →
    (∀ job ∈ jobs, (step client job s).1 = job) → (∃ job ∈ jobs, job.result? = none) →
    leavesAll jobs ≠ 0
  | [], _, hr => absurd hr (by simp)
  | job :: jobs, h, hr => by
    obtain ⟨hjob, hjobs⟩ := List.forall_mem_cons.mp h
    intro hz
    rw [leavesAll] at hz
    cases hn : job.result? with
    | none =>
      have hne := leaves_ne_zero_of_step job hjob hn
      exact hne (Multiset.le_zero.mp (hz ▸ Multiset.le_add_right _ _))
    | some r =>
      refine leavesAll_ne_zero_of_steps jobs hjobs ?_
        (Multiset.le_zero.mp (hz ▸ Multiset.le_add_left _ _))
      obtain ⟨job', hmem, hnone⟩ := hr
      rcases List.mem_cons.mp hmem with rfl | hmem
      · rw [hn] at hnone
        cases hnone
      · exact ⟨job', hmem, hnone⟩

end

/-! ## What comes after the end -/

/-- **A job that goes on with the value of another takes the steps of the other**, and once this has
its value, those of what it goes on with. -/
theorem step_bind (f : α → Job β) : (job : Job α) → (s : Session) →
    step client (job.bind f) s = match (step client job s).1.value? with
      | some a => step client (f a) (step client job s).2
      | none => ((step client job s).1.bind f, (step client job s).2)
  | done (.ok _), _ => rfl
  | done (.error _), _ => rfl
  | openStack _ _ next, s => by
    rw [step, bind, step]
    exact step_bind f (next _) _
  | ask _ _ _ next, s => by
    rw [step, bind, step]
    split
    · exact step_bind f (next _) _
    · rfl
    · rfl
  | gather parts next, s => by
    rw [step, bind, step]
    split
    · rfl
    · split
      · exact step_bind f (next _) _
      · rfl
  | attempt part next, s => by
    rw [step, bind, step]
    simp only
    split
    · exact step_bind f (next _) _
    · exact step_bind f (next _) _
    · rfl
    · rfl

/-- What is done with the value of a job at its end makes no difference to its steps. -/
theorem step_map (g : α → β) (job : Job α) (s : Session) :
    step client (job.bind fun a => pure (g a)) s
      = ((step client job s).1.bind fun a => pure (g a), (step client job s).2) := by
  rw [step_bind]
  split
  · next a ha =>
    rw [value?_eq_some.mp ha]
    rfl
  · rfl

theorem result?_map (g : α → β) (job : Job α) :
    (job.bind fun a => pure (g a)).result?.isSome = job.result?.isSome := by
  cases job with
  | done r => cases r <;> rfl
  | _ => rfl

end StackExpr.Job
