import StackExpr.Proofs.Job.Ensures
import StackExpr.Proofs.Job.Step
/-!
# What does not depend on a deployed resource

A deployed resource may be taken out of the cloud, and out of all that was read from the cloud
(`Session.without`). A job is `Indifferent` to the resource if it goes on with what is deployed as
if the resource was not. **Such a job takes the same steps without the resource, and comes to the
same result** (`Job.run_without`).
-/

namespace StackExpr

/-! ## Without a resource -/

/-- The resources that do not have an id. -/
def StackResource.othersThan (id : String) (resources : List StackResource) : List StackResource :=
  resources.filter fun r => r.logicalId != id

/-- The answer to a question, without the resource of an id. -/
def Query.without (id : String) : (q : Query) → q.Answer → q.Answer
  | .inventory, resources => StackResource.othersThan id resources
  | .urlSuffix, suffix => suffix
  | .exportNamed _, found => found

/-- The progress of a reader, with another answer. -/
def Progress.map {α β : Type} (f : α → β) : Progress α → Progress β
  | ready a => .ready (f a)
  | failed message => .failed message
  | suspended phase => .suspended phase

/-- A cell with another value. -/
def Cell.map {α β : Type} (f : α → β) (c : Cell α) : Cell β := ⟨c.value.map f, c.lock⟩

/-- The cloud without the resource of an id, in every stack. -/
def Cloud.without (c : Cloud) (id : String) : Cloud :=
  { c with inventories := Dict.mapValues (StackResource.othersThan id) c.inventories }

/-- The client without the resource of an id: the same requests fail. -/
def Client.without (c : Client) (id : String) : Client := { c with cloud := c.cloud.without id }

/-- The caches without the resource of an id in what was read. -/
def Caches.without (c : Caches) (id : String) : Caches :=
  { c with inventory := c.inventory.map (StackResource.othersThan id) }

/-- The session without the resource of an id in all that was read. -/
def Session.without (s : Session) (id : String) : Session :=
  { s with caches := s.caches.map (·.without id) }

/-! ## Answers -/

theorem Dict.get?_mapValues {α β : Type} (f : α → β) (d : Dict α) (key : String) :
    (mapValues f d).get? key = (d.get? key).map f := by
  induction d with
  | nil => rfl
  | cons e d ih =>
    show (if e.1 = key then some (f e.2) else (mapValues f d).get? key)
      = (if e.1 = key then some e.2 else Dict.get? d key).map f
    rw [ih]
    split <;> rfl

variable {id : String}

namespace Client

variable (client : Client) (n : Nat)

theorem answer_stackResources_without (stack : String) :
    (client.without id).answer (.stackResources stack) n
      = (client.answer (.stackResources stack) n).map (StackResource.othersThan id) := by
  unfold answer
  show (if client.faults.hits .stackResources n then _ else _)
    = Except.map _ (if client.faults.hits .stackResources n then _ else _)
  split
  · rfl
  · unfold Cloud.answer
    simp only [without, Cloud.without, Dict.get?_mapValues]
    cases client.cloud.inventories.get? stack <;> rfl

theorem answer_exports_without (token : Option String) :
    (client.without id).answer (.exports token) n = client.answer (.exports token) n := by
  cases token <;> rfl

end Client

theorem Cell.advance_map {α β : Type} (f : α → β) (c : Cell α) (kind : RequestKind)
    (answer : Nat → Except String α) (phase : Phase) (made : Requests) :
    (c.map f).advance kind (fun n => (answer n).map f) phase made
      = ((c.advance kind answer phase made).1.map f, (c.advance kind answer phase made).2.1.map f,
        (c.advance kind answer phase made).2.2) := by
  have hwait : ∀ (c : Cell α) t, (c.map f).fetchOrWait kind t made
      = ((c.fetchOrWait kind t made).1.map f, (c.fetchOrWait kind t made).2.1.map f,
        (c.fetchOrWait kind t made).2.2) := by
    intro c t
    unfold fetchOrWait
    show (if c.lock.heldBy t then _ else _) = _
    split <;> rfl
  obtain ⟨value, lock⟩ := c
  cases phase with
  | fetching ticket number token =>
    simp only [advance]
    cases answer number <;> rfl
  | waiting ticket =>
    cases value with
    | some v => rfl
    | none => exact hwait ⟨none, lock⟩ ticket
  | arriving =>
    cases value with
    | some v => rfl
    | none => exact hwait ⟨none, lock.enter.2⟩ lock.enter.1

theorem ExportScan.advance_without (s : ExportScan) (client : Client) (name : String)
    (phase : Phase) (made : Requests) :
    s.advance (client.without id) name phase made = s.advance client name phase made := by
  cases phase with
  | fetching ticket number token =>
    unfold advance
    simp only [client.answer_exports_without]
  | waiting ticket => rfl
  | arriving => rfl

theorem Caches.advance_without (c : Caches) (client : Client) (phase : Phase) (made : Requests)
    (q : Query) : (c.without id).advance (client.without id) phase made q
      = ((c.advance client phase made q).1.map (q.without id),
        (c.advance client phase made q).2.1.without id, (c.advance client phase made q).2.2) := by
  have hmap : ∀ {α : Type} (p : Progress α), p.map (fun a => a) = p := fun p => by cases p <;> rfl
  cases q with
  | inventory =>
    have hanswer : (client.without id).answer (.stackResources c.stack) = _ :=
      funext fun n => client.answer_stackResources_without n c.stack
    have h := c.inventory.advance_map (StackResource.othersThan id) .stackResources
      (client.answer (.stackResources c.stack)) phase made
    rw [← hanswer] at h
    exact congrArg (fun x : Progress _ × Cell _ × Requests =>
      (x.1, ({ c with inventory := x.2.1 } : Caches), x.2.2)) h
  | urlSuffix =>
    unfold advance
    exact Prod.ext (hmap _).symm rfl
  | exportNamed name =>
    unfold advance
    simp only [without, ExportScan.advance_without]
    exact Prod.ext (hmap _).symm rfl

/-- **A reader goes on without the resource as it does with it.** -/
theorem Session.advance_without (s : Session) (client : Client) (i : Nat) (phase : Phase)
    (q : Query) : (s.without id).advance (client.without id) i phase q
      = ((s.advance client i phase q).1.map (q.without id),
        (s.advance client i phase q).2.without id) := by
  unfold advance
  simp only [without, List.getElem?_map]
  cases s.caches[i]? with
  | none => rfl
  | some c =>
    simp only [Option.map_some, Caches.advance_without, List.map_set]

theorem Session.release_without (s : Session) (i : Nat) (phase : Phase) (q : Query) :
    (s.without id).release i phase q = (s.release i phase q).without id := by
  have hcaches : ((s.caches.map (·.without id)).modify i fun c => c.release phase q)
      = (s.caches.modify i fun c => c.release phase q).map (·.without id) := by
    refine List.ext_getElem? fun j => ?_
    simp only [List.getElem?_map, List.getElem?_modify]
    cases s.caches[j]? with
    | none => rfl
    | some c =>
      by_cases hj : i = j
      · simp only [hj, if_true]
        cases q <;> rfl
      · simp only [hj, if_false]
        rfl
  exact congrArg (Session.mk s.requests) hcaches

theorem Session.openStack_without (s : Session) (stack region : String) :
    (s.without id).openStack stack region
      = ((s.openStack stack region).1, (s.openStack stack region).2.without id) := by
  simp only [openStack, without, List.length_map, List.map_append, List.map_cons, List.map_nil]
  rfl

/-! ## Jobs -/

/-- The world in which anything may happen. -/
def World.any : World := ⟨fun _ _ _ => True, fun _ _ _ => True, fun _ _ _ => True⟩

theorem World.admits_any (e : Event) : World.any.Admits e := by
  cases e <;> trivial

namespace Job

variable {α β : Type} {client : Client} {s : Session}

mutual

theorem cancel_without : {α : Type} → (job : Job α) → (s : Session) →
    cancel job (s.without id) = (cancel job s).without id
  | _, done _, _ => rfl
  | _, openStack _ _ _, _ => rfl
  | _, ask i q p _, s => s.release_without i p q
  | _, gather parts _, s => cancelAll_without parts s
  | _, attempt part _, s => cancel_without part s

theorem cancelAll_without : (jobs : List (Job Json)) → (s : Session) →
    cancelAll jobs (s.without id) = (cancelAll jobs s).without id
  | [], _ => rfl
  | job :: jobs, s => by
    rw [cancelAll, cancelAll, cancel_without job s, cancelAll_without jobs]

end

/-- Whatever the cloud answers, the job may end so. -/
def MayEnd (job : Job α) (r : Except Failure α) : Prop := job.CanEnd .any r

theorem mayEnd_done (r : Except Failure α) : (done r).MayEnd r := fun _ h => h

/-- After moves, a job may only end as before. -/
theorem Moves.mayEnd {job job' : Job α} {s s' : Session} {events : List Event}
    (h : Moves client job s events job' s') {r : Except Failure α} (hr : job'.MayEnd r) :
    job.MayEnd r := by
  induction h with
  | none job s => exact hr
  | cons hm h ih =>
    exact fun Q hQ => ih hr Q (hm.ensures (fun _ _ _ => trivial) (fun e _ => World.admits_any e) hQ)

theorem mayEnd_of_step {job : Job α} {r : Except Failure α}
    (h : (step client job s).1.MayEnd r) : job.MayEnd r :=
  have ⟨_, hm⟩ := step_moves client job s
  hm.mayEnd h

mutual

/-- The job goes on with what is deployed as if the resource of an id was not. -/
def Indifferent (id : String) : {α : Type} → Job α → Prop
  | _, done _ => True
  | _, openStack _ _ next => ∀ n, Indifferent id (next n)
  | _, ask _ q _ next => ∀ a, next (q.without id a) = next a ∧ Indifferent id (next a)
  | _, gather parts next => IndifferentAll id parts ∧
    ∀ vs, List.Forall₂ (fun part v => MayEnd part (.ok v)) parts vs → Indifferent id (next vs)
  | _, attempt part next => Indifferent id part ∧
    ∀ r, part.MayEnd (r.mapError .evaluation) → Indifferent id (next r)

/-- Each job of a list goes on so. -/
def IndifferentAll (id : String) : List (Job Json) → Prop
  | [] => True
  | job :: jobs => Indifferent id job ∧ IndifferentAll id jobs

end

theorem indifferentAll_iff {jobs : List (Job Json)} :
    IndifferentAll id jobs ↔ ∀ job ∈ jobs, job.Indifferent id := by
  induction jobs with
  | nil => simp [IndifferentAll]
  | cons job jobs ih => rw [IndifferentAll, ih, List.forall_mem_cons]

/-- A job that goes on with a value that the first one may have. -/
theorem indifferent_bind {f : α → Job β} : {job : Job α} → job.Indifferent id →
    (∀ a, job.MayEnd (.ok a) → (f a).Indifferent id) → (job.bind f).Indifferent id
  | done (.ok a), _, hf => hf a (mayEnd_done _)
  | done (.error _), _, _ => trivial
  | openStack _ _ _, h, hf => fun n =>
    indifferent_bind (h n) fun a ha => hf a fun Q hQ => ha Q (hQ n trivial)
  | ask _ q _ next, h, hf => fun a => by
    refine ⟨?_, indifferent_bind (h a).2 fun b hb => hf b fun Q hQ => hb Q (hQ.1 a trivial)⟩
    show (next (q.without id a)).bind f = (next a).bind f
    rw [(h a).1]
  | gather parts _, h, hf => by
    refine ⟨h.1, fun vs hvs => indifferent_bind (h.2 vs hvs) fun a ha => hf a fun Q hQ => ?_⟩
    obtain ⟨Ps, hp, hv, -⟩ := hQ
    exact ha Q (hv vs (forall₂_of_canEnd hp (List.forall₂_map_left_iff.mpr hvs)))
  | attempt _ _, h, hf => by
    refine ⟨h.1, fun r hr => indifferent_bind (h.2 r hr) fun a ha => hf a fun Q hQ => ?_⟩
    obtain ⟨P, hp, hP, -⟩ := hQ
    exact ha Q (hP r (hr P hp))

/-! ## Steps -/

mutual

/-- **A job takes the same steps without a resource that it is indifferent to.** -/
theorem step_without (client : Client) : {α : Type} → (job : Job α) → (s : Session) →
    job.Indifferent id →
    step (client.without id) job (s.without id)
        = ((step client job s).1, (step client job s).2.without id) ∧
      (step client job s).1.Indifferent id
  | _, done _, _, _ => ⟨rfl, trivial⟩
  | _, openStack stack region next, s, h => by
    rw [step, step, s.openStack_without]
    exact step_without client (next _) _ (h _)
  | _, ask i q p next, s, h => by
    rw [step, step, s.advance_without]
    rcases s.advance client i p q with ⟨progress, s'⟩
    cases progress with
    | ready a =>
      show step _ (next (q.without id a)) _ = _ ∧ _
      rw [(h a).1]
      exact step_without client (next a) s' (h a).2
    | failed message => exact ⟨rfl, trivial⟩
    | suspended p' => exact ⟨rfl, h⟩
  | _, gather parts next, s, h => by
    obtain ⟨hparts, hall⟩ :=
      stepParts_without client (decide (parts.length ≤ shortLength)) true parts s h.1
    rw [step, step, hparts]
    rcases hp : stepParts client (parts.length ≤ shortLength) true parts s with ⟨_ | parts', s'⟩
    · exact ⟨rfl, trivial⟩
    · obtain ⟨hindifferent, hmay⟩ := hall parts' (by rw [hp])
      have hnext : ∀ vs, List.Forall₂ (fun part v => MayEnd part (.ok v)) parts' vs →
          (next vs).Indifferent id := fun vs hvs => h.2 vs (hmay vs hvs)
      simp only
      cases hvs : parts'.mapM value? with
      | some vs =>
        refine step_without client (next vs) s' (hnext vs ?_)
        rw [mapM_value?_eq_some.mp hvs, List.forall₂_map_left_iff]
        exact List.forall₂_same.mpr fun v _ => mayEnd_done _
      | none => exact ⟨rfl, hindifferent, hnext⟩
  | _, attempt part next, s, h => by
    obtain ⟨hpart, hindifferent⟩ := step_without client part s h.1
    have hnext : ∀ r, (step client part s).1.MayEnd (r.mapError .evaluation) →
        (next r).Indifferent id := fun r hr => h.2 r (mayEnd_of_step hr)
    rw [step, step, hpart]
    rcases hp : step client part s with ⟨part', s'⟩
    simp only [hp] at hindifferent hnext
    simp only
    split
    · next v hv =>
      rw [result?_eq_some.mp hv] at hnext
      exact step_without client (next _) s' (hnext (.ok v) (mayEnd_done _))
    · next e he =>
      rw [result?_eq_some.mp he] at hnext
      exact step_without client (next _) s' (hnext (.error e) (mayEnd_done _))
    · exact ⟨rfl, trivial⟩
    · exact ⟨rfl, hindifferent, hnext⟩

/-- The parts of a `gather` take the same steps, and may only end as before. -/
theorem stepParts_without (client : Client) (short settled : Bool) :
    (parts : List (Job Json)) → (s : Session) → IndifferentAll id parts →
    stepParts (client.without id) short settled parts (s.without id)
        = ((stepParts client short settled parts s).1,
          (stepParts client short settled parts s).2.without id) ∧
      ∀ parts', (stepParts client short settled parts s).1 = .ok parts' →
        IndifferentAll id parts' ∧
        ∀ vs, List.Forall₂ (fun part v => MayEnd part (.ok v)) parts' vs →
          List.Forall₂ (fun part v => MayEnd part (.ok v)) parts vs
  | [], s, _ => by
    refine ⟨rfl, fun parts' h => ?_⟩
    obtain rfl := Except.ok.inj h
    exact ⟨trivial, fun vs hvs => hvs⟩
  | part :: parts, s, h => by
    obtain ⟨hpart, hindifferent⟩ := step_without client part s h.1
    have hmay : ∀ v, (step client part s).1.MayEnd (.ok v) → part.MayEnd (.ok v) :=
      fun v => mayEnd_of_step
    rw [stepParts, stepParts, hpart]
    rcases hp : step client part s with ⟨part', s'⟩
    simp only [hp] at hindifferent hmay
    simp only
    split
    · exact ⟨Prod.ext rfl (cancelAll_without parts s'), fun parts' he => nomatch he⟩
    · obtain ⟨hparts, hall⟩ :=
        stepParts_without client short (settled && part'.value?.isSome) parts s' h.2
      rw [hparts]
      rcases hr : stepParts client short (settled && part'.value?.isSome) parts s' with
        ⟨e | parts', s₂⟩
      · exact ⟨Prod.ext rfl (cancel_without part' s₂), fun parts' he => nomatch he⟩
      · obtain ⟨hindifferents, hmays⟩ := hall parts' (by rw [hr])
        refine ⟨rfl, fun parts'' he => ?_⟩
        obtain rfl := Except.ok.inj he
        refine ⟨⟨hindifferent, hindifferents⟩, fun vs hvs => ?_⟩
        cases hvs with
        | cons hv hvs => exact .cons (hmay _ hv) (hmays _ hvs)

end

/-! ## Runs of jobs -/

theorem round_without (client : Client) : (jobs : List (Job α)) → (s : Session) →
    (∀ job ∈ jobs, job.Indifferent id) →
    round (client.without id) jobs (s.without id)
        = ((round client jobs s).1, (round client jobs s).2.without id) ∧
      ∀ job ∈ (round client jobs s).1, job.Indifferent id
  | [], _, _ => ⟨rfl, fun _ h => absurd h List.not_mem_nil⟩
  | job :: jobs, s, h => by
    obtain ⟨hjob, hjobs⟩ := List.forall_mem_cons.mp h
    obtain ⟨hstep, hindifferent⟩ := step_without client job s hjob
    obtain ⟨hround, hall⟩ := round_without client jobs (step client job s).2 hjobs
    rw [round, round, hstep]
    simp only [hround]
    exact ⟨trivial, List.forall_mem_cons.mpr ⟨hindifferent, hall⟩⟩

theorem rounds_without (client : Client) (n : Nat) {jobs : List (Job α)} {s : Session}
    (h : ∀ job ∈ jobs, job.Indifferent id) :
    rounds (client.without id) n jobs (s.without id)
      = ((rounds client n jobs s).1, (rounds client n jobs s).2.without id) := by
  induction n generalizing jobs s with
  | zero => rfl
  | succ n ih =>
    obtain ⟨hround, hall⟩ := round_without client jobs s h
    rw [rounds, rounds, hround]
    split
    · rfl
    · exact ih hall

/-- **A job comes to the same result without a resource that it is indifferent to**, and all that it
has read is the same but for the resource. -/
theorem run_without {job : Job α} (h : job.Indifferent id) (client : Client) (s : Session) :
    job.run (client.without id) (s.without id)
      = ((job.run client s).1, (job.run client s).2.without id) := by
  unfold run
  rw [rounds_without client patience (List.forall_mem_singleton.mpr h)]

end Job

end StackExpr
