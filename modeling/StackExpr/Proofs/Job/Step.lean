import StackExpr.Proofs.Job.Move
/-!
# Steps are sequences of moves

`Job.step` goes on with a job as far as it gets, and with the parts of a `gather` in order. **All of
that is a sequence of moves** (`Job.step_moves`), so what no move can break no schedule of steps can
break either.
-/

namespace StackExpr.Job

/-- Moves of a job one after the other, and all that happens. -/
inductive Moves (client : Client) {α : Type} :
    Job α → Session → List Event → Job α → Session → Prop where
  | none (job : Job α) (s : Session) : Moves client job s [] job s
  | cons {job job₁ job' : Job α} {s s₁ s' : Session} {events events' : List Event}
    (hm : Move client job s events job₁ s₁) (h : Moves client job₁ s₁ events' job' s') :
    Moves client job s (events ++ events') job' s'

namespace Moves

variable {α : Type} {client : Client} {s s' s₁ : Session} {events events' : List Event}

theorem single {job job' : Job α} (hm : Move client job s events job' s') :
    Moves client job s events job' s' := by
  rw [← List.append_nil events]
  exact .cons hm (.none _ _)

theorem append {job job₁ job' : Job α} (h : Moves client job s events job₁ s₁)
    (h' : Moves client job₁ s₁ events' job' s') :
    Moves client job s (events ++ events') job' s' := by
  induction h with
  | none job s => exact h'
  | cons hm h ih =>
    rw [List.append_assoc]
    exact .cons hm (ih h')

/-- The moves of a part are moves of the whole. -/
theorem part {job job' : Job Json} (before after : List (Job Json)) (next : List Json → Job α)
    (h : Moves client job s events job' s') :
    Moves client (gather (before ++ job :: after) next) s events
      (gather (before ++ job' :: after) next) s' := by
  induction h with
  | none job s => exact .none _ _
  | cons hm h ih => exact .cons (.part before after hm) ih

theorem attempting {job job' : Job Json} (next : Except EvalError Json → Job α)
    (h : Moves client job s events job' s') :
    Moves client (attempt job next) s events (attempt job' next) s' := by
  induction h with
  | none job s => exact .none _ _
  | cons hm h ih => exact .cons (.attempting hm) ih

end Moves

theorem failure?_eq_some {α : Type} {job : Job α} {e : Failure} :
    job.failure? = some e ↔ job = done (.error e) := by
  cases job with
  | done r => cases r <;> simp [failure?, result?]
  | _ => simp [failure?, result?]

theorem result?_eq_some {α : Type} {job : Job α} {r : Except Failure α} :
    job.result? = some r ↔ job = done r := by
  cases job <;> simp [result?]

theorem cancelAll_append (jobs jobs' : List (Job Json)) (s : Session) :
    cancelAll (jobs ++ jobs') s = cancelAll jobs' (cancelAll jobs s) := by
  induction jobs generalizing s with
  | nil => rfl
  | cons job jobs ih => exact ih _

/-- One part after the other: it fails and counts, or the parts behind it go on. -/
theorem stepParts_cons {client : Client} {short settled : Bool} {part : Job Json}
    {parts : List (Job Json)} {s s' : Session} {r : Except Failure (List (Job Json))}
    (h : stepParts client short settled (part :: parts) s = (r, s')) :
    ∃ part' s₁, step client part s = (part', s₁) ∧
      ((∃ e, part' = done (.error e) ∧ (short = true ∨ settled = true) ∧ r = .error e ∧
          s' = cancelAll parts s₁) ∨
        ∃ r' s₂, stepParts client short (settled && part'.value?.isSome) parts s₁ = (r', s₂) ∧
          ((∃ parts', r' = .ok parts' ∧ r = .ok (part' :: parts') ∧ s' = s₂) ∨
            ∃ e, r' = .error e ∧ r = .error e ∧ s' = cancel part' s₂)) := by
  rw [stepParts] at h
  rcases hp : step client part s with ⟨part', s₁⟩
  simp only [hp] at h
  refine ⟨part', s₁, rfl, ?_⟩
  split at h
  · next e hf hc =>
    obtain ⟨rfl, rfl⟩ := h
    exact Or.inl ⟨e, failure?_eq_some.mp hf, by simpa using hc, rfl, rfl⟩
  · rcases hr : stepParts client short (settled && part'.value?.isSome) parts s₁ with ⟨r', s₂⟩
    simp only [hr] at h
    refine Or.inr ⟨r', s₂, rfl, ?_⟩
    cases r' with
    | ok parts' =>
      obtain ⟨rfl, rfl⟩ := h
      exact Or.inl ⟨parts', rfl, rfl, rfl⟩
    | error e =>
      obtain ⟨rfl, rfl⟩ := h
      exact Or.inr ⟨e, rfl, rfl, rfl⟩

/-- If all parts so far have their values and one more has, all have. -/
theorem value_of_settled {settled : Bool} {before : List (Job Json)} {part : Job Json}
    (hb : settled = true → ∀ job ∈ before, job.value?.isSome)
    (h : (settled && part.value?.isSome) = true) : ∀ job ∈ before ++ [part], job.value?.isSome := by
  obtain ⟨hs, hp⟩ := Bool.and_eq_true_iff.mp h
  intro job hjob
  rcases List.mem_append.mp hjob with hjob | hjob
  · exact hb hs job hjob
  · rwa [List.mem_singleton.mp hjob]

mutual

/-- **A step is a sequence of moves.** -/
theorem step_moves (client : Client) : {α : Type} → (job : Job α) → (s : Session) →
    ∃ events, Moves client job s events (step client job s).1 (step client job s).2
  | _, done r, s => ⟨[], .none _ _⟩
  | _, openStack stack region next, s => by
    obtain ⟨events, h⟩ := step_moves client (next (s.openStack stack region).1)
      (s.openStack stack region).2
    exact ⟨_, .cons (.opened stack region next) h⟩
  | _, ask id q p next, s => by
    rw [step]
    split
    · next a s' ha =>
      obtain ⟨events, h⟩ := step_moves client (next a) s'
      exact ⟨_, .cons (.answered ha) h⟩
    · next message s' ha => exact ⟨_, .single (.refused ha)⟩
    · next p' s' ha => exact ⟨_, .single (.suspended ha)⟩
  | _, gather parts next, s => by
    rw [step]
    split
    · next e s' hp =>
      obtain ⟨events, left, right, s₁, h, hlength, hc, rfl⟩ :=
        stepParts_error client next [] (by simp) parts s hp
      refine ⟨_, h.append (.single (.calledOff _ ?_ ?_))⟩
      · -- Those behind the failed part are called off first, then those before it, backwards.
        exact (List.perm_append_comm).trans ((List.reverse_perm left).append_right right)
      · refine hc.imp (fun hs => ?_) (fun hs => hs)
        rw [hlength]
        exact of_decide_eq_true hs
    · next parts' s' hp =>
      obtain ⟨events, h⟩ := stepParts_ok client next [] (by simp) parts s hp
      split
      · next vs hvs =>
        obtain ⟨events', h'⟩ := step_moves client (next vs) s'
        exact ⟨_, h.append (.cons (.gathered hvs) h')⟩
      · exact ⟨events, h⟩
  | _, attempt part next, s => by
    obtain ⟨events, h⟩ := step_moves client part s
    rw [step]
    rcases hp : step client part s with ⟨part', s₁⟩
    rw [hp] at h
    have h := h.attempting next
    simp only
    split
    · next v hv =>
      rw [result?_eq_some.mp hv] at h
      obtain ⟨events', h'⟩ := step_moves client (next (.ok v)) s₁
      exact ⟨_, h.append (.cons (.attempted (.ok v)) h')⟩
    · next e he =>
      rw [result?_eq_some.mp he] at h
      obtain ⟨events', h'⟩ := step_moves client (next (.error e)) s₁
      exact ⟨_, h.append (.cons (.attempted (.error e)) h')⟩
    · next e hne he =>
      rw [result?_eq_some.mp he] at h
      exact ⟨_, h.append (.single (.abandoned hne))⟩
    · exact ⟨events, h⟩

/-- The parts of a `gather` go on in order. -/
theorem stepParts_ok (client : Client) {α : Type} {short settled : Bool}
    (next : List Json → Job α) (before : List (Job Json))
    (hb : settled = true → ∀ job ∈ before, job.value?.isSome) :
    (parts : List (Job Json)) → (s : Session) → {parts' : List (Job Json)} → {s' : Session} →
    stepParts client short settled parts s = (.ok parts', s') →
    ∃ events, Moves client (gather (before ++ parts) next) s events
      (gather (before ++ parts') next) s'
  | [], s, _, _, h => by
    obtain ⟨rfl, rfl⟩ := h
    exact ⟨[], .none _ _⟩
  | part :: parts, s, _, _, h => by
    obtain ⟨part', s₁, hp, hr⟩ := stepParts_cons h
    obtain ⟨e, -, -, he, -⟩ | ⟨r', s₂, hrest, ⟨parts', rfl, hok, rfl⟩ | ⟨e, -, he, -⟩⟩ := hr
    · cases he
    · obtain rfl := Except.ok.inj hok
      obtain ⟨events, hm⟩ := step_moves client part s
      rw [hp] at hm
      -- The part that has gone on is one of those that stand before the others now.
      obtain ⟨events', hm'⟩ := stepParts_ok client next (before ++ [part'])
        (fun hs => value_of_settled hb hs) parts s₁ hrest
      rw [List.append_assoc, List.append_assoc] at hm'
      exact ⟨_, (hm.part before parts next).append hm'⟩
    · cases he

/-- When a part has failed and counts, the others are there to be called off. -/
theorem stepParts_error (client : Client) {α : Type} {short settled : Bool}
    (next : List Json → Job α) (before : List (Job Json))
    (hb : settled = true → ∀ job ∈ before, job.value?.isSome) :
    (parts : List (Job Json)) → (s : Session) → {e : Failure} → {s' : Session} →
    stepParts client short settled parts s = (.error e, s') →
    ∃ events left right s₁, Moves client (gather (before ++ parts) next) s events
        (gather (before ++ (left ++ done (.error e) :: right)) next) s₁ ∧
      (left ++ done (.error e) :: right).length = parts.length ∧
      (short = true ∨ ∀ job ∈ before ++ left, job.value?.isSome) ∧
      s' = cancelAll (right ++ left.reverse) s₁
  | [], s, _, _, h => by
    rw [stepParts] at h
    cases h
  | part :: parts, s, _, _, h => by
    obtain ⟨part', s₁, hp, hr⟩ := stepParts_cons h
    obtain ⟨events, hm⟩ := step_moves client part s
    rw [hp] at hm
    obtain ⟨e, rfl, hc, he, rfl⟩ | ⟨r', s₂, hrest, ⟨parts', -, hok, -⟩ | ⟨e, rfl, he, rfl⟩⟩ := hr
    · obtain rfl := Except.error.inj he
      refine ⟨events, [], parts, s₁, hm.part before parts next, rfl, hc.imp_right fun hs => ?_, ?_⟩
      · rw [List.append_nil]
        exact hb hs
      · rw [List.reverse_nil, List.append_nil]
    · cases hok
    · obtain rfl := Except.error.inj he
      obtain ⟨events', left, right, s₃, hm', hlength, hc, rfl⟩ := stepParts_error client next
        (before ++ [part']) (fun hs => value_of_settled hb hs) parts s₁ hrest
      rw [List.append_assoc, List.append_assoc] at hm'
      refine ⟨_, part' :: left, right, s₃, (hm.part before parts next).append hm', ?_, ?_, ?_⟩
      · rw [List.cons_append, List.length_cons, hlength, List.length_cons]
      · rw [List.append_assoc] at hc
        exact hc
      · rw [List.reverse_cons, ← List.append_assoc, cancelAll_append _ [part']]
        rfl

end

end StackExpr.Job
