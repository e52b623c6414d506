import StackExpr.Proofs.Job.Nearer
/-!
# Nobody waits for ever

A reader is awake if it does not have to wait: its next step answers it, makes it fail or brings it
nearer to its answer. Behind every queue there is a reader whose turn it is, so
**among readers at caches that are open, one is awake** (`Traffic.exists_awake`).

**A job with an awake reader can get nearer to its end, and so can an unfinished job without
readers** (`Job.exists_move_of_awake`, `Job.exists_move_of_leaves`). Unless the reader has a request
of its own under way, nobody has to answer for that.
-/

namespace StackExpr

/-! ## Readers -/

/-- The reader does not have to wait. -/
def Reader.Awake (client : Client) (s : Session) (r : Reader) : Prop :=
  ∀ p, (s.advance client r.caches r.phase r.query).1 = .suspended p →
    p.distance client.cloud < r.phase.distance client.cloud

/-- Whoever is not awake waits for a lock that is another one's. -/
theorem Reader.waiting_of_not_awake {client : Client} {s : Session} {r : Reader} {c : Caches}
    (h : ¬ r.Awake client s) (hc : s.caches[r.caches]? = some c) :
    ∃ t, r.phase = .waiting t ∧ (c.lock r.query.kind).heldBy t = false := by
  simp only [Awake, not_forall] at h
  obtain ⟨p, hp, hd⟩ := h
  rcases Session.advance_suspended (Prod.ext hp rfl) with ⟨-, -, hwait⟩ | hlt
  · exact hwait c hc
  · exact absurd hlt hd

/-- **Among readers at caches that are open, one is awake.** -/
theorem Traffic.exists_awake {client : Client} {log : List Event} {readers : Multiset Reader}
    {s : Session} (h : Traffic client log readers s)
    (hopen : ∀ r ∈ readers, r.caches < s.caches.length) (hne : readers ≠ 0) :
    ∃ r ∈ readers, r.Awake client s := by
  obtain ⟨r, hr⟩ := Multiset.exists_mem_of_ne_zero hne
  by_cases ha : r.Awake client s
  · exact ⟨r, hr, ha⟩
  -- The lock for which it waits has a holder, and the holder is a reader at the same lock.
  obtain ⟨c, hc⟩ : ∃ c, s.caches[r.caches]? = some c := ⟨_, List.getElem?_eq_getElem (hopen r hr)⟩
  obtain ⟨t, ht, hheld⟩ := Reader.waiting_of_not_awake ha hc
  have hg := (h.toCaches hc).guarded r.query.kind
  have hat : r.phase ∈ phasesAt (readersAt readers r.caches) r.query.kind :=
    mem_phasesAt (Multiset.mem_filter.mpr ⟨hr, rfl⟩)
  have hqueue : t ∈ (c.lock r.query.kind).queue := by
    rw [← Multiset.mem_coe, ← hg.tickets]
    exact (Multiset.mem_filterMap _ _).mpr ⟨_, hat, by rw [ht]; rfl⟩
  obtain ⟨u, hu⟩ : ∃ u, (c.lock r.query.kind).holder = some u := by
    refine Option.ne_none_iff_exists'.mp fun hnone => ?_
    rw [Lock.holder_eq_none_iff.mp hnone] at hqueue
    exact absurd hqueue List.not_mem_nil
  obtain ⟨p, hp, hpu⟩ := hg.exists_holder hu
  obtain ⟨holder, hmem, hkind, rfl⟩ := exists_of_mem_phasesAt hp
  obtain ⟨hmem, hcaches⟩ := Multiset.mem_filter.mp hmem
  refine ⟨holder, hmem, ?_⟩
  -- Whoever holds the lock does not wait for it.
  by_contra hasleep
  rw [← hcaches] at hc
  obtain ⟨t', ht', hheld'⟩ := Reader.waiting_of_not_awake hasleep hc
  rw [ht'] at hpu
  obtain rfl := Option.some.inj hpu
  rw [hkind] at hheld'
  simp [Lock.heldBy, hu] at hheld'

/-- Only who has a request under way has a reply. -/
theorem Session.isReply_of_mem_events {s : Session} {client : Client} {id : Nat} {q : Query}
    {p : Phase} {progress : Progress q.Answer} (hp : p.isFetching = false) :
    ∀ e ∈ s.events client id q p progress, e.isReply = false := by
  intro e he
  unfold events at he
  split at he
  · rw [Caches.events_of_not_fetching hp] at he
    exact Caches.isReply_of_mem_reaction e he
  · cases he

/-! ## Jobs -/

namespace Job

/-- A job can get nearer to its end; for a reader with no request under way, without a reply. -/
def CanMove (client : Client) {α : Type} (job : Job α) (s : Session) (fetching : Bool) : Prop :=
  ∃ events job' s', Move client job s events job' s' ∧ Nearer client.cloud job' job ∧
    (fetching = false → ∀ e ∈ events, e.isReply = false)

namespace CanMove

variable {client : Client} {s : Session} {fetching : Bool} {α : Type}

theorem part {job : Job Json} (before after : List (Job Json)) (next : List Json → Job α)
    (h : job.CanMove client s fetching) :
    (gather (before ++ job :: after) next).CanMove client s fetching := by
  obtain ⟨events, job', s', hm, hn, he⟩ := h
  exact ⟨events, _, s', .part before after hm, .part before after hn, he⟩

theorem attempting {job : Job Json} (next : Except EvalError Json → Job α)
    (h : job.CanMove client s fetching) : (attempt job next).CanMove client s fetching := by
  obtain ⟨events, job', s', hm, hn, he⟩ := h
  exact ⟨events, _, s', .attempting hm, .attempting hn, he⟩

end CanMove

variable {client : Client} {s : Session}

/-- A reader that is awake can go on. -/
theorem canMove_ask {α : Type} {id : Nat} {q : Query} {p : Phase} {next : q.Answer → Job α}
    (h : (⟨id, q, p⟩ : Reader).Awake client s) :
    (ask id q p next).CanMove client s p.isFetching := by
  have hreply := fun progress hp => @Session.isReply_of_mem_events s client id q p progress hp
  rcases ha : s.advance client id p q with ⟨progress, s'⟩
  cases progress with
  | ready a => exact ⟨_, _, s', .answered ha, .answered a, hreply _⟩
  | failed message => exact ⟨_, _, s', .refused ha, .failed _ rfl, hreply _⟩
  | suspended p' =>
    exact ⟨_, _, s', .suspended ha, .suspended (h p' (congrArg Prod.fst ha)), hreply _⟩

mutual

/-- **A job with a reader that is awake can get nearer to its end.** -/
theorem exists_move_of_awake {r : Reader} (h : r.Awake client s) : {α : Type} → (job : Job α) →
    r ∈ job.leaves → job.CanMove client s r.phase.isFetching
  | _, done _, hr => absurd hr (Multiset.notMem_zero r)
  | _, openStack _ _ _, hr => absurd hr (Multiset.notMem_zero r)
  | _, ask id q p next, hr => by
    rw [Multiset.mem_singleton.mp hr] at h ⊢
    exact canMove_ask h
  | _, gather parts next, hr => by
    obtain ⟨before, part, after, rfl, hm⟩ := exists_part_of_awake h parts hr
    exact hm.part before after next
  | _, attempt part next, hr => (exists_move_of_awake h part hr).attempting next

theorem exists_part_of_awake {r : Reader} (h : r.Awake client s) : (jobs : List (Job Json)) →
    r ∈ leavesAll jobs → ∃ before job after, jobs = before ++ job :: after ∧
      job.CanMove client s r.phase.isFetching
  | [], hr => absurd hr (Multiset.notMem_zero r)
  | job :: jobs, hr => by
    rcases Multiset.mem_add.mp hr with hr | hr
    · exact ⟨[], job, jobs, rfl, exists_move_of_awake h job hr⟩
    · obtain ⟨before, job', after, rfl, hm⟩ := exists_part_of_awake h jobs hr
      exact ⟨job :: before, job', after, rfl, hm⟩

end

/-- Parts that have all ended have their values, or there is a first one that has failed. -/
theorem values_or_failure {parts : List (Job Json)} (h : ∀ part ∈ parts, part.result?.isSome) :
    (∃ vs, parts.mapM value? = some vs) ∨ ∃ before e after,
      parts = before ++ done (.error e) :: after ∧ ∀ part ∈ before, part.value?.isSome := by
  induction parts with
  | nil => exact Or.inl ⟨[], rfl⟩
  | cons part parts ih =>
    obtain ⟨r, hr⟩ := Option.isSome_iff_exists.mp (h part List.mem_cons_self)
    obtain rfl := result?_eq_some.mp hr
    cases r with
    | error e => exact Or.inr ⟨[], e, parts, rfl, fun _ hp => absurd hp List.not_mem_nil⟩
    | ok v =>
      rcases ih fun p hp => h p (List.mem_cons_of_mem _ hp) with ⟨vs, hvs⟩ | ⟨b, e, a, rfl, hb⟩
      · refine Or.inl ⟨v :: vs, ?_⟩
        rw [mapM_value?_eq_some] at hvs ⊢
        rw [hvs, List.map_cons]
      · refine Or.inr ⟨done (.ok v) :: b, e, a, rfl, List.forall_mem_cons.mpr ⟨rfl, hb⟩⟩

/-- When all parts of a `gather` have ended, it can go on with their values or fail. -/
theorem canMove_gather {α : Type} {parts : List (Job Json)} {next : List Json → Job α}
    (h : ∀ part ∈ parts, part.result?.isSome) : (gather parts next).CanMove client s false := by
  rcases values_or_failure h with ⟨vs, hvs⟩ | ⟨before, e, after, rfl, hb⟩
  · exact ⟨[], _, s, .gathered hvs, .gathered vs, fun _ e he => absurd he List.not_mem_nil⟩
  · exact ⟨[], _, _, .calledOff _ (List.Perm.refl _) (Or.inr hb), .failed e rfl,
      fun _ e he => absurd he List.not_mem_nil⟩

/-- When the part of an `attempt` has ended, it can go on with the result or fail. -/
theorem canMove_attempt {α : Type} {part : Job Json} {next : Except EvalError Json → Job α}
    (h : part.result?.isSome) : (attempt part next).CanMove client s false := by
  have hnil : false = false → ∀ e ∈ ([] : List Event), e.isReply = false :=
    fun _ e he => absurd he List.not_mem_nil
  obtain ⟨r, hr⟩ := Option.isSome_iff_exists.mp h
  obtain rfl := result?_eq_some.mp hr
  rcases r with (e | m | _) | v
  · exact ⟨[], _, s, .attempted (.error e), .attempted _, hnil⟩
  · exact ⟨[], _, s, .abandoned (by simp), .failed _ rfl, hnil⟩
  · exact ⟨[], _, s, .abandoned (by simp), .failed _ rfl, hnil⟩
  · exact ⟨[], _, s, .attempted (.ok v), .attempted _, hnil⟩

mutual

/-- **An unfinished job without readers can get nearer to its end.** -/
theorem exists_move_of_leaves : {α : Type} → (job : Job α) → job.result? = none →
    job.leaves = 0 → job.CanMove client s false
  | _, done _, h, _ => by cases h
  | _, openStack stack region next, _, _ =>
    ⟨[], _, _, .opened stack region next, .opened _, fun _ e he => absurd he List.not_mem_nil⟩
  | _, ask _ _ _ _, _, h => absurd h (Multiset.singleton_ne_zero _)
  | _, gather parts next, _, h => by
    rcases exists_part_of_leaves parts h with hall | ⟨before, part, after, rfl, hm⟩
    · exact canMove_gather hall
    · exact hm.part before after next
  | _, attempt part next, _, h => by
    cases hr : part.result? with
    | none => exact (exists_move_of_leaves part hr h).attempting next
    | some r => exact canMove_attempt (by rw [hr]; rfl)

theorem exists_part_of_leaves : (jobs : List (Job Json)) → leavesAll jobs = 0 →
    (∀ job ∈ jobs, job.result?.isSome) ∨
      ∃ before job after, jobs = before ++ job :: after ∧ job.CanMove client s false
  | [], _ => Or.inl fun _ h => absurd h List.not_mem_nil
  | job :: jobs, h => by
    rw [leavesAll] at h
    have hjob : job.leaves = 0 := Multiset.le_zero.mp (h ▸ Multiset.le_add_right _ _)
    have hjobs : leavesAll jobs = 0 := Multiset.le_zero.mp (h ▸ Multiset.le_add_left _ _)
    cases hr : job.result? with
    | none => exact Or.inr ⟨[], job, jobs, rfl, exists_move_of_leaves job hr hjob⟩
    | some r =>
      rcases exists_part_of_leaves jobs hjobs with hall | ⟨before, job', after, rfl, hm⟩
      · exact Or.inl (List.forall_mem_cons.mpr ⟨by rw [hr]; rfl, hall⟩)
      · exact Or.inr ⟨job :: before, job', after, rfl, hm⟩

end

/-- A job that has ended has no readers. -/
theorem result?_of_mem_leaves {α : Type} {job : Job α} {r : Reader} (h : r ∈ job.leaves) :
    job.result? = none := by
  cases job with
  | done r' => exact absurd h (Multiset.notMem_zero r)
  | _ => rfl

end Job

end StackExpr
