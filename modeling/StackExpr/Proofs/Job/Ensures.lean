import StackExpr.Proofs.Job.Move
/-!
# What a job ensures

A `World` says what a job may meet with: of which stack the caches with a number are, how questions
to them are answered, and how requests fail. `job.Ensures w Q` says that, in this world, whatever
comes first and whatever comes last, the job can only end with results that satisfy `Q`. It is
defined by recursion on the job, so it is proved along the definition of the job (`ensures_bind` and
what surrounds it) and not by looking at schedules.

**What a job ensures, it ensures after every move that the world admits** (`Move.ensures`).

Often only the values matter: `job.Returns w P` says that all values the job can end with satisfy
`P`.
-/

namespace StackExpr

/-- What a job may meet with. -/
structure World where
  /-- The caches with a number may be those of a stack in a region. -/
  opened : (id : Nat) → (stack region : String) → Prop
  /-- A question to the caches with a number may be answered so. -/
  answers : (id : Nat) → (q : Query) → q.Answer → Prop
  /-- A request of a kind, made at the caches with a number, may fail with a message. -/
  refuses : (id : Nat) → RequestKind → (message : String) → Prop

namespace World

/-- What happens may happen in the world. -/
def Admits (w : World) : Event → Prop
  | .asked _ _ _ => True
  | .answered _ _ _ _ => True
  | .refused id r _ message => w.refuses id r.kind message
  | .read id q a => w.answers id q a

end World

namespace Job

variable {α β : Type} {w : World}

mutual

/-- The job can only end with results that satisfy a condition. -/
def Ensures (w : World) : {α : Type} → Job α → (Except Failure α → Prop) → Prop
  | _, done r, Q => Q r
  | _, openStack stack region next, Q => ∀ id, w.opened id stack region → Ensures w (next id) Q
  | _, ask id q _ next, Q =>
    (∀ a, w.answers id q a → Ensures w (next a) Q) ∧
      ∀ message, w.refuses id q.kind message → Q (.error (.client message))
  | _, gather parts next, Q =>
    ∃ Ps, EnsuresAll w parts Ps ∧
      (∀ vs, List.Forall₂ (fun P v => P (.ok v)) Ps vs → Ensures w (next vs) Q) ∧
      -- A part that fails has its say if the parts are few or all before it have values.
      ∀ before P after e, Ps = before ++ P :: after → P (.error e) →
        (Ps.length ≤ shortLength ∨ ∀ P' ∈ before, ∃ v, P' (.ok v)) → Q (.error e)
  | _, attempt part next, Q =>
    ∃ P, Ensures w part P ∧
      (∀ r, P (r.mapError .evaluation) → Ensures w (next r) Q) ∧
      ∀ e, (∀ e', e ≠ .evaluation e') → P (.error e) → Q (.error e)

/-- Each job of a list can only end with results that satisfy its condition. -/
def EnsuresAll (w : World) : List (Job Json) → List (Except Failure Json → Prop) → Prop
  | [], Ps => Ps = []
  | job :: jobs, Ps => ∃ P Ps', Ps = P :: Ps' ∧ Ensures w job P ∧ EnsuresAll w jobs Ps'

end

theorem ensuresAll_iff {jobs : List (Job Json)} {Ps : List (Except Failure Json → Prop)} :
    EnsuresAll w jobs Ps ↔ List.Forall₂ (Ensures w) jobs Ps := by
  induction jobs generalizing Ps with
  | nil => simp [EnsuresAll]
  | cons job jobs ih =>
    simp only [EnsuresAll, ih, List.forall₂_cons_left_iff]
    constructor
    · rintro ⟨P, Ps', rfl, hP, hPs⟩
      exact ⟨P, Ps', hP, hPs, rfl⟩
    · rintro ⟨P, Ps', hP, hPs, rfl⟩
      exact ⟨P, Ps', rfl, hP, hPs⟩

theorem ensuresAll_append {before after : List (Job Json)}
    {Ps : List (Except Failure Json → Prop)} :
    EnsuresAll w (before ++ after) Ps ↔
      ∃ Ps₁ Ps₂, Ps = Ps₁ ++ Ps₂ ∧ EnsuresAll w before Ps₁ ∧ EnsuresAll w after Ps₂ := by
  induction before generalizing Ps with
  | nil => simp [EnsuresAll]
  | cons job before ih =>
    constructor
    · rintro ⟨P, Ps', rfl, hP, h⟩
      obtain ⟨Ps₁, Ps₂, rfl, hbefore, hafter⟩ := ih.mp h
      exact ⟨P :: Ps₁, Ps₂, rfl, ⟨P, Ps₁, rfl, hP, hbefore⟩, hafter⟩
    · rintro ⟨_, Ps₂, rfl, ⟨P, Ps₁, rfl, hP, hbefore⟩, hafter⟩
      exact ⟨P, Ps₁ ++ Ps₂, rfl, hP, ih.mpr ⟨Ps₁, Ps₂, rfl, hbefore, hafter⟩⟩

theorem exists_of_ensuresAll {jobs : List (Job Json)} {Ps : List (Except Failure Json → Prop)}
    (h : EnsuresAll w jobs Ps) {P : Except Failure Json → Prop} (hP : P ∈ Ps) :
    ∃ job ∈ jobs, Ensures w job P := by
  induction jobs generalizing Ps with
  | nil =>
    rw [EnsuresAll] at h
    rw [h] at hP
    exact absurd hP List.not_mem_nil
  | cons job jobs ih =>
    obtain ⟨P', Ps', rfl, hjob, h⟩ := h
    rcases List.mem_cons.mp hP with rfl | hP
    · exact ⟨job, List.mem_cons_self, hjob⟩
    · obtain ⟨job', hmem, hjob'⟩ := ih h hP
      exact ⟨job', List.mem_cons_of_mem job hmem, hjob'⟩

/-! ## Along the definition of a job -/

theorem Ensures.mono {Q Q' : Except Failure α → Prop} (hQ : ∀ r, Q r → Q' r) :
    {job : Job α} → job.Ensures w Q → job.Ensures w Q'
  | done r, h => hQ r h
  | openStack _ _ _, h => fun id hid => (h id hid).mono hQ
  | ask _ _ _ _, h => ⟨fun a ha => (h.1 a ha).mono hQ, fun m hm => hQ _ (h.2 m hm)⟩
  | gather _ _, h => by
    obtain ⟨Ps, hp, hv, he⟩ := h
    exact ⟨Ps, hp, fun vs hvs => (hv vs hvs).mono hQ,
      fun b P a e hb hP hc => hQ _ (he b P a e hb hP hc)⟩
  | attempt _ _, h => by
    obtain ⟨P, hp, hr, he⟩ := h
    exact ⟨P, hp, fun r hr' => (hr r hr').mono hQ, fun e hne hP => hQ _ (he e hne hP)⟩

/-- A job that goes on with the value of another. -/
theorem ensures_bind {f : α → Job β} {Q : Except Failure β → Prop} {P : Except Failure α → Prop}
    (hf : ∀ a, P (.ok a) → (f a).Ensures w Q) (he : ∀ e, P (.error e) → Q (.error e)) :
    {job : Job α} → job.Ensures w P → (job.bind f).Ensures w Q
  | done (.ok a), h => hf a h
  | done (.error e), h => he e h
  | openStack _ _ _, h => fun id hid => ensures_bind hf he (h id hid)
  | ask _ _ _ _, h => ⟨fun a ha => ensures_bind hf he (h.1 a ha), fun m hm => he _ (h.2 m hm)⟩
  | gather _ _, h => by
    obtain ⟨Ps, hp, hv, hs⟩ := h
    exact ⟨Ps, hp, fun vs hvs => ensures_bind hf he (hv vs hvs),
      fun b P a e hb hP hc => he _ (hs b P a e hb hP hc)⟩
  | attempt _ _, h => by
    obtain ⟨P, hp, hr, hs⟩ := h
    exact ⟨P, hp, fun r hr' => ensures_bind hf he (hr r hr'), fun e hne hP => he _ (hs e hne hP)⟩

/-- What a job that goes on with the value of another ensures, said of the other. -/
def After (w : World) (f : α → Job β) (Q : Except Failure β → Prop) : Except Failure α → Prop
  | .ok a => (f a).Ensures w Q
  | .error e => Q (.error e)

theorem ensures_of_bind {f : α → Job β} {Q : Except Failure β → Prop} :
    {job : Job α} → (job.bind f).Ensures w Q → job.Ensures w (After w f Q)
  | done (.ok _), h => h
  | done (.error _), h => h
  | openStack _ _ _, h => fun id hid => ensures_of_bind (h id hid)
  | ask _ _ _ _, h => ⟨fun a ha => ensures_of_bind (h.1 a ha), h.2⟩
  | gather _ _, h => by
    obtain ⟨Ps, hp, hv, hs⟩ := h
    exact ⟨Ps, hp, fun vs hvs => ensures_of_bind (hv vs hvs), hs⟩
  | attempt _ _, h => by
    obtain ⟨P, hp, hr, hs⟩ := h
    exact ⟨P, hp, fun r hr' => ensures_of_bind (hr r hr'), hs⟩

theorem ensures_query {id : Nat} {q : Query} {Q : Except Failure q.Answer → Prop}
    (ha : ∀ a, w.answers id q a → Q (.ok a))
    (hr : ∀ message, w.refuses id q.kind message → Q (.error (.client message))) :
    (query id q).Ensures w Q := ⟨ha, hr⟩

/-- A job that runs parts side by side. -/
theorem ensures_all {parts : List (Job Json)} {Ps : List (Except Failure Json → Prop)}
    {Q : Except Failure (List Json) → Prop} (hp : List.Forall₂ (Ensures w) parts Ps)
    (hv : ∀ vs, List.Forall₂ (fun P v => P (.ok v)) Ps vs → Q (.ok vs))
    (he : ∀ before P after e, Ps = before ++ P :: after → P (.error e) →
      (Ps.length ≤ shortLength ∨ ∀ P' ∈ before, ∃ v, P' (.ok v)) → Q (.error e)) :
    (all parts).Ensures w Q :=
  ⟨Ps, ensuresAll_iff.mpr hp, hv, he⟩

/-! ## What a job can end with -/

/-- The job can end with this result: whatever it ensures, this result satisfies. -/
def CanEnd (w : World) (job : Job α) (r : Except Failure α) : Prop := ∀ Q, job.Ensures w Q → Q r

/-- Values that jobs can end with satisfy what the jobs ensure. -/
theorem forall₂_of_canEnd {jobs : List (Job Json)} {Ps : List (Except Failure Json → Prop)}
    {vs : List Json} (hp : EnsuresAll w jobs Ps)
    (hvs : List.Forall₂ (fun P v => P (.ok v)) (jobs.map (CanEnd w)) vs) :
    List.Forall₂ (fun P v => P (.ok v)) Ps vs := by
  induction jobs generalizing Ps vs with
  | nil =>
    rw [EnsuresAll] at hp
    rw [hp]
    exact hvs
  | cons job jobs ih =>
    obtain ⟨P, Ps', rfl, hP, hPs⟩ := hp
    cases hvs with
    | cons hv hvs => exact .cons (hv P hP) (ih hPs hvs)

/-- A failure that one of the jobs can end with satisfies what that job ensures. -/
theorem exists_of_canEnd {jobs : List (Job Json)} {P : Except Failure Json → Prop}
    {Ps before after : List (Except Failure Json → Prop)} (hp : EnsuresAll w jobs Ps)
    (h : jobs.map (CanEnd w) = before ++ P :: after) :
    ∃ before' P' after', Ps = before' ++ P' :: after' ∧ (∀ r, P r → P' r) ∧
      ∀ P₁' ∈ before', ∃ P₁ ∈ before, ∀ r, P₁ r → P₁' r := by
  obtain ⟨jobs₁, _, rfl, rfl, hcons⟩ := List.map_eq_append_iff.mp h
  obtain ⟨job, jobs₂, rfl, rfl, rfl⟩ := List.map_eq_cons_iff.mp hcons
  obtain ⟨before', _, rfl, hbefore, P', after', rfl, hjob, -⟩ := ensuresAll_append.mp hp
  refine ⟨before', P', after', rfl, fun r hr => hr P' hjob, fun P₁' hP₁' => ?_⟩
  obtain ⟨job₁, hmem, hjob₁⟩ := exists_of_ensuresAll hbefore hP₁'
  exact ⟨job₁.CanEnd w, List.mem_map.mpr ⟨job₁, hmem, rfl⟩, fun r hr => hr P₁' hjob₁⟩

mutual

/-- **A job ensures that it ends with what it can end with.** -/
theorem ensures_canEnd {α : Type} : (job : Job α) → job.Ensures w (job.CanEnd w)
  | done _ => fun _ h => h
  | openStack _ _ next => fun id hid =>
    (ensures_canEnd (next id)).mono fun _ hr Q hQ => hr Q (hQ id hid)
  | ask _ _ _ next =>
    ⟨fun a ha => (ensures_canEnd (next a)).mono fun _ hr Q hQ => hr Q (hQ.1 a ha),
      fun m hm Q hQ => hQ.2 m hm⟩
  | gather parts next => by
    refine ⟨parts.map (CanEnd w), ensuresAll_canEnd parts, fun vs hvs => ?_,
      fun before P after e hPs hP hc Q hQ => ?_⟩
    · refine (ensures_canEnd (next vs)).mono fun r hr Q hQ => ?_
      obtain ⟨Ps, hp, hv, -⟩ := hQ
      exact hr Q (hv vs (forall₂_of_canEnd hp hvs))
    · -- What the jobs can end with says more than any other conditions, so it is met earlier.
      obtain ⟨Ps, hp, -, he⟩ := hQ
      obtain ⟨before', P', after', rfl, hP', hbefore⟩ := exists_of_canEnd hp hPs
      have hlength : (parts.map (CanEnd w)).length = (before' ++ P' :: after').length := by
        rw [List.length_map]
        exact (ensuresAll_iff.mp hp).length_eq
      refine he before' P' after' e rfl (hP' _ hP) (hc.imp (fun hs => hlength ▸ hs) ?_)
      intro hb P₁' hP₁'
      obtain ⟨P₁, hP₁, hle⟩ := hbefore P₁' hP₁'
      obtain ⟨v, hv⟩ := hb P₁ hP₁
      exact ⟨v, hle _ hv⟩
  | attempt part next => by
    refine ⟨part.CanEnd w, ensures_canEnd part, fun r hr => ?_, fun e hne he Q hQ => ?_⟩
    · refine (ensures_canEnd (next r)).mono fun r' hr' Q hQ => ?_
      obtain ⟨P, hp, hP, -⟩ := hQ
      exact hr' Q (hP r (hr P hp))
    · obtain ⟨P, hp, -, hP⟩ := hQ
      exact hP e hne (he P hp)

theorem ensuresAll_canEnd : (jobs : List (Job Json)) → EnsuresAll w jobs (jobs.map (CanEnd w))
  | [] => rfl
  | job :: jobs => ⟨_, _, rfl, ensures_canEnd job, ensuresAll_canEnd jobs⟩

end

theorem Ensures.and {P Q : Except Failure α → Prop} {job : Job α} (h : job.Ensures w P)
    (h' : job.Ensures w Q) : job.Ensures w fun r => P r ∧ Q r :=
  (ensures_canEnd job).mono fun _ hr => ⟨hr P h, hr Q h'⟩

/-- A job that goes on with the value of another ends as what it goes on with, or has failed
before. -/
theorem canEnd_bind {f : α → Job β} {job : Job α} {r : Except Failure β} :
    (job.bind f).CanEnd w r ↔ (∃ a, job.CanEnd w (.ok a) ∧ (f a).CanEnd w r) ∨
      ∃ e, job.CanEnd w (.error e) ∧ r = .error e := by
  constructor
  · intro h
    have hends : (job.bind f).Ensures w fun r => (∃ a, job.CanEnd w (.ok a) ∧ (f a).CanEnd w r) ∨
        ∃ e, job.CanEnd w (.error e) ∧ r = .error e :=
      ensures_bind (fun a ha => (ensures_canEnd (f a)).mono fun r hr => Or.inl ⟨a, ha, hr⟩)
        (fun e he => Or.inr ⟨e, he, rfl⟩) (ensures_canEnd job)
    exact h _ hends
  · intro h Q hQ
    have hjob := ensures_of_bind hQ
    rcases h with ⟨a, ha, hr⟩ | ⟨e, he, rfl⟩
    · exact hr Q (ha _ hjob)
    · exact he _ hjob

/-! ## Values of a kind -/

/-- The job only ends with values that satisfy a condition, or with a failure. -/
def Returns (w : World) (P : α → Prop) (job : Job α) : Prop :=
  job.Ensures w fun r => ∀ a, r = .ok a → P a

theorem returns_pure {P : α → Prop} {a : α} (h : P a) : (pure a : Job α).Returns w P := by
  rintro _ ⟨⟩
  exact h

theorem returns_fail {P : α → Prop} (e : EvalError) : (fail e : Job α).Returns w P := by
  rintro _ ⟨⟩

theorem returns_of_forall {P : α → Prop} (hP : ∀ a, P a) (job : Job α) : job.Returns w P :=
  (ensures_canEnd job).mono fun _ _ a _ => hP a

theorem Returns.bind {f : α → Job β} {P : α → Prop} {Q : β → Prop} {job : Job α}
    (h : job.Returns w P) (hf : ∀ a, P a → (f a).Returns w Q) : (job.bind f).Returns w Q :=
  ensures_bind (fun a ha => hf a (ha a rfl)) (fun _ _ _ hb => nomatch hb) h

/-- What a job goes on with satisfies a condition, whatever value the job has. -/
theorem returns_bind {f : α → Job β} {Q : β → Prop} (hf : ∀ a, (f a).Returns w Q) (job : Job α) :
    (job.bind f).Returns w Q :=
  (returns_of_forall (P := fun _ => True) (fun _ => trivial) job).bind fun a _ => hf a

theorem returns_ofExcept {P : α → Prop} {r : Except EvalError α} (h : ∀ a, r = .ok a → P a) :
    (ofExcept r).Returns w P := by
  cases r with
  | ok a => exact returns_pure (h a rfl)
  | error e => exact returns_fail e

theorem returns_ofOption {P : α → Prop} {e : EvalError} {o : Option α}
    (h : ∀ a, o = some a → P a) : (ofOption e o).Returns w P := by
  cases o with
  | some a => exact returns_pure (h a rfl)
  | none => exact returns_fail e

theorem returns_all {P : Json → Prop} {parts : List (Job Json)}
    (h : ∀ part ∈ parts, part.Returns w P) : (all parts).Returns w fun vs => ∀ v ∈ vs, P v := by
  have hparts : List.Forall₂ (Ensures w) parts (parts.map fun _ r => ∀ v, r = .ok v → P v) := by
    rw [List.forall₂_map_right_iff]
    exact List.forall₂_same.mpr h
  refine ensures_all hparts ?_ ?_
  · rintro vs hvs _ ⟨⟩
    rw [List.forall₂_map_left_iff] at hvs
    have hP : List.Forall₂ (fun v _ => P v ∧ True) vs parts :=
      hvs.flip.imp fun v _ hv => ⟨hv v rfl, trivial⟩
    exact ((List.forall₂_and_left vs parts).mp hP).1
  · intro before P' after e _ _ _ vs hvs
    cases hvs

end Job

/-! ## Answers and failures in the log -/

namespace Session

variable {s s' : Session} {client : Client} {id : Nat} {p : Phase} {q : Query}

/-- Whoever has an answer has read it. -/
theorem read_mem_events {a : q.Answer} (ha : s.advance client id p q = (.ready a, s')) :
    .read id q a ∈ s.events client id q p (.ready a) := by
  rcases advance_cases ha with ⟨c, c', made, -, -, -, he⟩ | ⟨-, hp, -⟩
  · rw [he]
    exact List.mem_append_right _ (List.mem_singleton.mpr rfl)
  · cases hp

/-- Whoever fails has had a request that failed. -/
theorem refused_mem_events {message : String}
    (ha : s.advance client id p q = (.failed message, s')) :
    ∃ r n, r.kind = q.kind ∧
      .refused id r n message ∈ s.events client id q p (.failed message) := by
  rcases advance_cases ha with ⟨c, c', made, -, hadv, -, he⟩ | ⟨-, hp, -⟩
  · obtain ⟨t, n, token, rfl, hr⟩ := (Caches.advance_step hadv).refused_of_failed
    refine ⟨c.request token q, n, c.request_kind token q, ?_⟩
    rw [he, Caches.events_of_error hr]
    exact List.mem_cons_self
  · cases hp

end Session

/-! ## Moves -/

namespace Job

variable {α : Type} {w : World}

/-- **A job still ensures what it has ensured before a move.** -/
theorem Move.ensures {client : Client} {job job' : Job α} {s s' : Session} {events : List Event}
    {Q : Except Failure α → Prop} (hm : Move client job s events job' s')
    (hopened : ∀ id c, s'.caches[id]? = some c → w.opened id c.stack c.region)
    (hevents : ∀ e ∈ events, w.Admits e) (h : job.Ensures w Q) : job'.Ensures w Q := by
  induction hm with
  | @opened _ s stack region next =>
    refine h _ ?_
    have hnew : (s.openStack stack region).2.caches[s.caches.length]? = some { stack, region } := by
      simp [Session.openStack]
    exact hopened _ _ hnew
  | answered ha => exact h.1 _ (hevents _ (Session.read_mem_events ha))
  | refused ha =>
    obtain ⟨r, n, hk, hr⟩ := Session.refused_mem_events ha
    have hw := hevents _ hr
    rw [World.Admits, hk] at hw
    exact h.2 _ hw
  | suspended ha => exact h
  | part before after hm ih =>
    obtain ⟨Ps, hp, hv, he⟩ := h
    obtain ⟨Ps₁, Ps₂, rfl, hbefore, P, Ps₃, rfl, hjob, hafter⟩ := ensuresAll_append.mp hp
    exact ⟨_, ensuresAll_append.mpr ⟨Ps₁, P :: Ps₃, rfl, hbefore, P, Ps₃, rfl,
      ih hopened hevents hjob, hafter⟩, hv, he⟩
  | @gathered _ s parts next vs hvs =>
    obtain ⟨Ps, hp, hv, he⟩ := h
    refine hv vs ?_
    rw [ensuresAll_iff, mapM_value?_eq_some.mp hvs, List.forall₂_map_left_iff] at hp
    exact hp.flip
  | @calledOff _ s before after e next order hperm hc =>
    obtain ⟨Ps, hp, hv, he⟩ := h
    have hlength : (before ++ done (.error e) :: after).length = Ps.length :=
      (ensuresAll_iff.mp hp).length_eq
    obtain ⟨Ps₁, Ps₂, rfl, hbefore, P, Ps₃, rfl, hjob, hafter⟩ := ensuresAll_append.mp hp
    refine he Ps₁ P Ps₃ e rfl hjob (hc.imp (fun hs => hlength ▸ hs) fun hb P' hP' => ?_)
    -- A part before the failed one has a value, and its value satisfies its condition.
    obtain ⟨part, hpart, hP'⟩ := exists_of_ensuresAll hbefore hP'
    obtain ⟨v, hv'⟩ := Option.isSome_iff_exists.mp (hb part hpart)
    rw [value?_eq_some.mp hv'] at hP'
    exact ⟨v, hP'⟩
  | attempting hm ih =>
    obtain ⟨P, hp, hr, he⟩ := h
    exact ⟨P, ih hopened hevents hp, hr, he⟩
  | attempted r =>
    obtain ⟨P, hp, hr, he⟩ := h
    exact hr r hp
  | abandoned hne =>
    obtain ⟨P, hp, hr, he⟩ := h
    exact he _ hne hp

end Job

end StackExpr
