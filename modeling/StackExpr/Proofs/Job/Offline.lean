import StackExpr.Proofs.Run
/-!
# Jobs that need nothing from outside

Some jobs come to a result on their own, whatever the cloud is like and whatever is known of it:
they ask nothing and open nothing. `job.offline?` is this result, if the job is such a one.
**Whoever goes on with the job, in whatever session and over whatever cloud, it ends at once with
that result, and the session is as before** (`Job.step_of_offline?`).

Where parts run side by side in any order and more than one of them fails, it depends on the order
which of them the job reports; all else does not. So **in every run the job makes nothing happen,
and it has the same value, or none, whatever the order** (`Run.offline`).
-/

namespace StackExpr

namespace Job

variable {α β : Type}

/-- Goes on with a value that was come to. -/
def onValue (r? : Option (Except EvalError α)) (f : α → Option (Except EvalError β)) :
    Option (Except EvalError β) :=
  match r? with
  | some (.ok a) => f a
  | some (.error e) => some (.error e)
  | none => none

mutual

/-- What a job comes to on its own. There is no such result if the job asks or opens anything, or if
what it goes on with is to make up for a part that has failed. -/
def offline? : {α : Type} → Job α → Option (Except EvalError α)
  | _, done (.ok a) => some (.ok a)
  | _, done (.error (.evaluation e)) => some (.error e)
  | _, done (.error _) => none
  | _, openStack _ _ _ => none
  | _, ask _ _ _ _ => none
  | _, gather parts next => onValue (offlineAll? parts) fun vs => offline? (next vs)
  | _, attempt part next =>
    match offline? part with
    | some (.ok v) => offline? (next (.ok v))
    | _ => none

/-- What jobs come to that all come to a result on their own: the list of their values, or the
reason why the first that has none has none. -/
def offlineAll? : List (Job Json) → Option (Except EvalError (List Json))
  | [] => some (.ok [])
  | job :: jobs =>
    match offline? job, offlineAll? jobs with
    | some r, some rs => some (do return (← r) :: (← rs))
    | _, _ => none

end

/-! ## Along the definition of a job -/

theorem offline?_ofExcept (r : Except EvalError α) : (ofExcept r).offline? = some r := by
  cases r <;> rfl

theorem offline?_bind {f : α → Job β} :
    (job : Job α) → (job.bind f).offline? = onValue job.offline? fun a => (f a).offline?
  | done (.ok _) => rfl
  | done (.error (.evaluation _)) => rfl
  | done (.error (.client _)) => rfl
  | done (.error .tooDeep) => rfl
  | openStack _ _ _ => rfl
  | ask _ _ _ _ => rfl
  | gather parts next => by
    rw [bind, offline?, offline?]
    rcases offlineAll? parts with _ | e | vs
    · rfl
    · rfl
    · exact offline?_bind (next vs)
  | attempt part next => by
    rw [bind, offline?, offline?]
    rcases offline? part with _ | e | v
    · rfl
    · rfl
    · exact offline?_bind (next (.ok v))

/-- A job that goes on comes to a value through a value. -/
theorem offline?_bind_eq_ok {job : Job α} {f : α → Job β} {b : β} :
    (job.bind f).offline? = some (.ok b) ↔
      ∃ a, job.offline? = some (.ok a) ∧ (f a).offline? = some (.ok b) := by
  rw [offline?_bind]
  rcases job.offline? with _ | e | a <;> simp [onValue]

theorem offline?_all (parts : List (Job Json)) : (all parts).offline? = offlineAll? parts := by
  show onValue (offlineAll? parts) (fun vs => some (.ok vs)) = _
  rcases offlineAll? parts with _ | e | vs <;> rfl

/-! ## Jobs that come to the same -/

/-- Two jobs come to the same result on their own. -/
def Alike (job job' : Job α) : Prop := ∃ r, job.offline? = some r ∧ job'.offline? = some r

theorem alike_pure (a : α) : (pure a : Job α).Alike (pure a) := ⟨.ok a, rfl, rfl⟩

theorem alike_fail (e : EvalError) : (fail e : Job α).Alike (fail e) := ⟨.error e, rfl, rfl⟩

theorem alike_ofExcept (r : Except EvalError α) : (ofExcept r).Alike (ofExcept r) :=
  ⟨r, offline?_ofExcept r, offline?_ofExcept r⟩

/-- Jobs that go on with the same value, in the same way. -/
theorem Alike.bind {job job' : Job α} {f f' : α → Job β} (h : job.Alike job')
    (hf : ∀ a, job.offline? = some (.ok a) → (f a).Alike (f' a)) :
    (job.bind f).Alike (job'.bind f') := by
  obtain ⟨r, hr, hr'⟩ := h
  rw [Alike, offline?_bind, offline?_bind, hr, hr']
  cases r with
  | error e => exact ⟨.error e, rfl, rfl⟩
  | ok a => exact hf a hr

theorem alike_all {parts parts' : List (Job Json)} (h : List.Forall₂ Alike parts parts') :
    (all parts).Alike (all parts') := by
  rw [Alike, offline?_all, offline?_all]
  induction h with
  | nil => exact ⟨.ok [], rfl, rfl⟩
  | cons hpart _ ih =>
    obtain ⟨r, hr, hr'⟩ := hpart
    obtain ⟨rs, hrs, hrs'⟩ := ih
    rw [offlineAll?, offlineAll?, hr, hr', hrs, hrs']
    exact ⟨_, rfl, rfl⟩

/-! ## Jobs with parts -/

theorem onValue_isSome {r? : Option (Except EvalError α)} {f : α → Option (Except EvalError β)}
    (h : (onValue r? f).isSome) : r?.isSome := by
  cases r? with
  | none => exact h
  | some r => rfl

theorem offlineAll?_cons_eq_some {job : Job Json} {jobs : List (Job Json)}
    {rs : Except EvalError (List Json)} : offlineAll? (job :: jobs) = some rs ↔
      ∃ r rs', job.offline? = some r ∧ offlineAll? jobs = some rs' ∧
        (do return (← r) :: (← rs')) = rs := by
  rw [offlineAll?]
  rcases job.offline? with _ | r <;> rcases offlineAll? jobs with _ | rs' <;> simp

/-- Jobs that all come to a result on their own do so each. -/
theorem forall_offline? {jobs : List (Job Json)} (h : (offlineAll? jobs).isSome) :
    ∀ job ∈ jobs, job.offline?.isSome := by
  induction jobs with
  | nil => exact fun _ hmem => absurd hmem List.not_mem_nil
  | cons job jobs ih =>
    obtain ⟨rs, hrs⟩ := Option.isSome_iff_exists.mp h
    obtain ⟨r, rs', hr, hrs', -⟩ := offlineAll?_cons_eq_some.mp hrs
    exact List.forall_mem_cons.mpr ⟨by rw [hr]; rfl, ih (by rw [hrs']; rfl)⟩

/-- If jobs all have values, each of them has. -/
theorem forall_of_offlineAll?_eq_ok {jobs : List (Job Json)} {vs : List Json}
    (h : offlineAll? jobs = some (.ok vs)) : ∀ job ∈ jobs, ∃ v, job.offline? = some (.ok v) := by
  induction jobs generalizing vs with
  | nil => exact fun _ hmem => absurd hmem List.not_mem_nil
  | cons job jobs ih =>
    obtain ⟨r, rs, hr, hrs, h⟩ := offlineAll?_cons_eq_some.mp h
    cases r with
    | error e => cases h
    | ok v =>
      cases rs with
      | error e => cases h
      | ok vs => exact List.forall_mem_cons.mpr ⟨⟨v, hr⟩, ih hrs⟩

/-- A part that is made up for when it fails has a value if it needs nothing from outside. -/
theorem offline?_attempt {part : Job Json} {next : Except EvalError Json → Job α}
    (h : (attempt part next).offline?.isSome) :
    ∃ v, part.offline? = some (.ok v) ∧
      (attempt part next).offline? = (next (.ok v)).offline? := by
  rw [offline?] at h ⊢
  cases hpart : part.offline? with
  | none => rw [hpart] at h; exact absurd h Bool.false_ne_true
  | some r =>
    cases r with
    | error e => rw [hpart] at h; exact absurd h Bool.false_ne_true
    | ok v => exact ⟨v, rfl, rfl⟩

/-! ## Running -/

mutual

theorem cancel_of_offline? : {α : Type} → (job : Job α) → job.offline?.isSome → (s : Session) →
    job.cancel s = s
  | _, done _, _, _ => rfl
  | _, openStack _ _ _, h, _ => nomatch h
  | _, ask _ _ _ _, h, _ => nomatch h
  | _, gather parts _, h, s => cancelAll_of_offline? parts (forall_offline? (onValue_isSome h)) s
  | _, attempt part _, h, s => by
    obtain ⟨v, hv, -⟩ := offline?_attempt h
    exact cancel_of_offline? part (by rw [hv]; rfl) s

theorem cancelAll_of_offline? : (jobs : List (Job Json)) → (∀ job ∈ jobs, job.offline?.isSome) →
    (s : Session) → cancelAll jobs s = s
  | [], _, _ => rfl
  | job :: jobs, h, s => by
    obtain ⟨hjob, hjobs⟩ := List.forall_mem_cons.mp h
    rw [cancelAll, cancel_of_offline? job hjob, cancelAll_of_offline? jobs hjobs]

end

mutual

/-- **A job that needs nothing from outside ends at once, and the session is as before.** -/
theorem step_of_offline? (client : Client) : {α : Type} → (job : Job α) →
    {r : Except EvalError α} → job.offline? = some r → (s : Session) →
    step client job s = (done (r.mapError .evaluation), s)
  | _, done (.ok _), _, h, _ => by cases h; rfl
  | _, done (.error (.evaluation _)), _, h, _ => by cases h; rfl
  | _, done (.error (.client _)), _, h, _ => nomatch h
  | _, done (.error .tooDeep), _, h, _ => nomatch h
  | _, openStack _ _ _, _, h, _ => nomatch h
  | _, ask _ _ _ _, _, h, _ => nomatch h
  | _, gather parts next, r, h, s => by
    rw [offline?] at h
    rw [step]
    cases hp : offlineAll? parts with
    | none => rw [hp] at h; cases h
    | some rs =>
      rw [stepParts_of_offlineAll? client parts hp]
      rw [hp] at h
      cases rs with
      | error e => cases h; rfl
      | ok vs =>
        have hvs : (vs.map fun v => done (.ok v) : List (Job Json)).mapM value? = some vs :=
          mapM_value?_eq_some.mpr rfl
        simp only [Except.map, Except.mapError, hvs]
        exact step_of_offline? client (next vs) h s
  | _, attempt part next, r, h, s => by
    obtain ⟨v, hv, hnext⟩ := offline?_attempt (by rw [h]; rfl)
    rw [step, step_of_offline? client part hv]
    exact step_of_offline? client (next (.ok v)) (hnext.symm.trans h) s

theorem stepParts_of_offlineAll? (client : Client) : (parts : List (Job Json)) →
    {rs : Except EvalError (List Json)} → offlineAll? parts = some rs → {short : Bool} →
    {s : Session} → stepParts client short true parts s
      = ((rs.map fun vs => vs.map fun v => done (.ok v)).mapError .evaluation, s)
  | [], _, h, _, _ => by cases h; rfl
  | part :: parts, rs, h, short, s => by
    obtain ⟨r, rs', hr, hrs, rfl⟩ := offlineAll?_cons_eq_some.mp h
    rw [stepParts, step_of_offline? client part hr]
    cases r with
    | error e =>
      -- The first part that fails has its say, and the others are called off.
      simp only [failure?, result?, Except.mapError, Bool.or_true]
      rw [cancelAll_of_offline? parts (forall_offline? (by rw [hrs]; rfl))]
      rfl
    | ok v =>
      simp only [failure?, result?, value?, Except.mapError, Option.isSome, Bool.and_true]
      rw [stepParts_of_offlineAll? client parts hrs]
      cases rs' <;> rfl

end

/-! ## Moves -/

theorem onValue_congr {r? r'? : Option (Except EvalError α)} {f : α → Option (Except EvalError β)}
    (h : r'?.map Except.toOption = r?.map Except.toOption) :
    (onValue r'? f).map Except.toOption = (onValue r? f).map Except.toOption := by
  rcases r? with _ | e | a <;> rcases r'? with _ | e' | a' <;> cases h <;> rfl

theorem eq_some_ok {r? : Option (Except EvalError α)} {a : α}
    (h : r?.map Except.toOption = some (some a)) : r? = some (.ok a) := by
  obtain ⟨r, hr, h⟩ := Option.map_eq_some_iff.mp h
  cases r with
  | error e => cases h
  | ok a' =>
    cases h
    exact hr

theorem offlineAll?_done (vs : List Json) :
    offlineAll? (vs.map fun v => done (.ok v)) = some (.ok vs) := by
  induction vs with
  | nil => rfl
  | cons v vs ih =>
    rw [List.map_cons, offlineAll?, ih]
    rfl

/-- Where one of the jobs comes to the same value, or to none as before, so do they all. -/
theorem offlineAll?_congr {job job' : Job Json} (before after : List (Job Json))
    (h : job'.offline?.map Except.toOption = job.offline?.map Except.toOption) :
    (offlineAll? (before ++ job' :: after)).map Except.toOption
      = (offlineAll? (before ++ job :: after)).map Except.toOption := by
  induction before with
  | nil =>
    rw [List.nil_append, List.nil_append, offlineAll?, offlineAll?]
    generalize job.offline? = r? at h
    generalize job'.offline? = r'? at h
    rcases r? with _ | e | v <;> rcases r'? with _ | e' | v' <;> cases h <;>
      rcases offlineAll? after with _ | e | vs <;> rfl
  | cons first before ih =>
    rw [List.cons_append, List.cons_append, offlineAll?, offlineAll?]
    generalize offlineAll? (before ++ job :: after) = rs? at ih
    generalize offlineAll? (before ++ job' :: after) = rs'? at ih
    rcases rs? with _ | e | vs <;> rcases rs'? with _ | e' | vs' <;> cases ih <;>
      rcases first.offline? with _ | e | v <;> rfl

/-- **When a job that needs nothing from outside moves, nothing happens**, and it needs nothing
afterwards. The value that it comes to, if there is one, stays the same. -/
theorem Move.offline {client : Client} {job job' : Job α} {s s' : Session} {events : List Event}
    (hm : Move client job s events job' s') (h : job.offline?.isSome) : events = [] ∧ s' = s ∧
      job'.offline?.map Except.toOption = job.offline?.map Except.toOption := by
  induction hm with
  | opened stack region next => cases h
  | answered ha => cases h
  | refused ha => cases h
  | suspended ha => cases h
  | part before after hm ih =>
    have hparts := forall_offline? (onValue_isSome h) _ (List.mem_append_right _ List.mem_cons_self)
    obtain ⟨rfl, rfl, heq⟩ := ih hparts
    exact ⟨rfl, rfl, onValue_congr (offlineAll?_congr before after heq)⟩
  | @gathered _ s parts next vs hvs =>
    refine ⟨rfl, rfl, ?_⟩
    rw [mapM_value?_eq_some.mp hvs, offline?, offlineAll?_done]
    rfl
  | @calledOff _ s before after e next order hperm hc =>
    have hparts := forall_offline? (onValue_isSome h)
    have horder : ∀ job ∈ order, job.offline?.isSome := by
      intro job hjob
      rcases List.mem_append.mp (hperm.mem_iff.mp hjob) with hbefore | hafter
      · exact hparts job (List.mem_append_left _ hbefore)
      · exact hparts job (List.mem_append_right _ (List.mem_cons_of_mem _ hafter))
    refine ⟨rfl, cancelAll_of_offline? order horder s, ?_⟩
    have hfailed := hparts (done (.error e)) (List.mem_append_right _ List.mem_cons_self)
    cases e with
    | client message => cases hfailed
    | tooDeep => cases hfailed
    | evaluation e =>
      obtain ⟨rs, hrs⟩ := Option.isSome_iff_exists.mp (onValue_isSome h)
      rw [offline?, offline?, hrs]
      cases rs with
      | error e' => rfl
      | ok vs =>
        obtain ⟨v, hv⟩ := forall_of_offlineAll?_eq_ok hrs _
          (List.mem_append_right _ List.mem_cons_self)
        cases hv
  | attempting hm ih =>
    obtain ⟨v, hpart, heq⟩ := offline?_attempt h
    obtain ⟨rfl, rfl, hsame⟩ := ih (by rw [hpart]; rfl)
    rw [hpart] at hsame
    refine ⟨rfl, rfl, ?_⟩
    rw [heq, offline?, eq_some_ok hsame]
  | @attempted _ s next r =>
    obtain ⟨v, hpart, heq⟩ := offline?_attempt h
    refine ⟨rfl, rfl, ?_⟩
    rw [heq]
    cases r with
    | error e => cases hpart
    | ok v' =>
      cases hpart
      rfl
  | @abandoned _ s next e hne =>
    obtain ⟨v, hpart, -⟩ := offline?_attempt h
    cases e with
    | evaluation e => exact absurd rfl (hne e)
    | client message => cases hpart
    | tooDeep => cases hpart

end Job

/-! ## Runs -/

section Runs

variable {client : Client} {log own : List Event} {tasks : Multiset Task} {s : Session}

/-- **An operation that needs nothing from outside does nothing in any run.** When it has ended, it
has ended with the value that it comes to on its own, or has failed for want of one. -/
theorem Run.offline (h : Run client log tasks s) {op : Operation} {job : Job op.Answer}
    {alone : Except EvalError op.Answer} (ht : ⟨op, job, own⟩ ∈ tasks)
    (hop : op.job.offline? = some alone) : own = [] ∧ ∀ r, job = .done r →
      ∃ ended, r = Except.mapError .evaluation ended ∧ ended.toOption = alone.toOption := by
  have hkept := h.keeps (P := fun op job own => op.job.offline?.isSome → own = [] ∧
    job.offline?.map Except.toOption = op.job.offline?.map Except.toOption)
    (fun _ _ _ ho => ho) (fun _ _ => ⟨rfl, rfl⟩) ?_ _ ht (by rw [hop]; rfl)
  · obtain ⟨hown, heq⟩ := hkept
    rw [hop] at heq
    refine ⟨hown, fun r hr => ?_⟩
    subst hr
    rcases r with (e | _ | _) | a
    · exact ⟨.error e, rfl, Option.some.inj heq⟩
    · cases heq
    · cases heq
    · exact ⟨.ok a, rfl, Option.some.inj heq⟩
  · intro op job job' own events s s' hm _ ih hop
    obtain ⟨rfl, heq⟩ := ih hop
    have hjob : job.offline?.isSome := by
      rw [← Option.isSome_map, heq, Option.isSome_map]
      exact hop
    obtain ⟨rfl, -, heq'⟩ := hm.offline hjob
    exact ⟨rfl, heq'.trans heq⟩

end Runs

end StackExpr
