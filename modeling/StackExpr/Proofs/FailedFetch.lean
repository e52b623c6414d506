import StackExpr.Proofs.Answers
import StackExpr.Proofs.Cache.Sharing
import StackExpr.Proofs.Completion
/-!
# What a fetch that fails costs

Callers that begin together and want the same of a stack, its resources or its URL suffix, share one
fetch. If it fails, the caller that has made it fails, and one of the others makes the next; when a
fetch is answered, all that are left have their value. So **requests that fail cost one caller
each**, however many callers there are, whichever requests fail, and in whatever order the callers
go on (`Run.failure_costs_one`).

What the callers share is followed by `Shared` of `StackExpr.Proofs.Cache.Sharing`, each caller
being one of the readers (`Task.stand`); `Sharing.advance` is the step.
-/

namespace StackExpr

open Job

/-! ## Jobs that read one answer -/

/-- The job asks the caches with a number one question, and this is what it makes of the answer. -/
inductive Job.Reads (id : Nat) : (q : Query) → {β : Type} → Job β → (q.Answer → β) → Prop where
  /-- The answer itself: all resources of the stack, or its URL suffix. -/
  | query (q : Query) : Reads id q (Job.query id q) fun a => a
  /-- The deployed resource of a logical id. -/
  | deployed (ev : Evaluator) (logicalId : String) (h : ev.caches = id) :
    Reads id .inventory (ev.deployed? logicalId) fun resources =>
      resources.find? fun r => r.logicalId == logicalId
  /-- The value of the URL suffix. -/
  | urlSuffix (ev : Evaluator) (h : ev.caches = id) :
    Reads id .urlSuffix (ev.evaluate (.object [("Ref", .string "AWS::URLSuffix")])) fun suffix =>
      .string suffix
  /-- Whatever is made of that. -/
  | map {q : Query} {β γ : Type} {job : Job β} {read : q.Answer → β} (g : β → γ)
    (h : Reads id q job read) : Reads id q (job.bind fun b => pure (g b)) fun a => g (read a)

theorem Job.Reads.eq_ask {id : Nat} {q : Query} {β : Type} {job : Job β} {read : q.Answer → β}
    (h : Reads id q job read) : job = .ask id q .arriving fun a => .done (.ok (read a)) := by
  induction h with
  | query q => rfl
  | deployed ev logicalId h => exact h ▸ rfl
  | urlSuffix ev h => exact h ▸ rfl
  | map g h ih =>
    rw [ih]
    rfl

/-- A job makes one thing only of an answer. -/
theorem Job.Reads.unique {id : Nat} {q : Query} {β : Type} {job : Job β} {read read' : q.Answer → β}
    (h : Reads id q job read) (h' : Reads id q job read') (a : q.Answer) : read a = read' a := by
  have hnext := (Job.ask.inj (h.eq_ask.symm.trans h'.eq_ask)).2.2.2
  exact Except.ok.inj (Job.done.inj (congrFun (eq_of_heq hnext) a))

namespace Task

variable {id : Nat} {q : Query} {a : q.Answer}

/-- An operation that reads one answer: it is on its way, has ended with what it makes of the
answer, or has failed with the message of its request. -/
inductive Reading (id : Nat) (q : Query) (a : q.Answer) : Task → Prop where
  | asking {op : Operation} {read : q.Answer → op.Answer} (h : Reads id q op.job read) (p : Phase)
    (own : List Event) : Reading id q a ⟨op, .ask id q p fun a => .done (.ok (read a)), own⟩
  | told {op : Operation} {read : q.Answer → op.Answer} (h : Reads id q op.job read)
    (own : List Event) : Reading id q a ⟨op, .done (.ok (read a)), own⟩
  | refused {op : Operation} {read : q.Answer → op.Answer} (h : Reads id q op.job read)
    (message : String) (own : List Event) :
    Reading id q a ⟨op, .done (.error (.client message)), own⟩

/-- Where an operation that reads one answer stands. -/
def stand (t : Task) : Stand :=
  match t.job with
  | .ask _ _ p _ => .asking p
  | .done (.error (.client message)) => .refused message
  | _ => .told

theorem reading_begun {op : Operation} {read : q.Answer → op.Answer} (h : Reads id q op.job read) :
    Reading id q a ⟨op, op.job, []⟩ ∧ stand ⟨op, op.job, []⟩ = .asking .arriving := by
  rw [h.eq_ask]
  exact ⟨.asking h _ _, rfl⟩

namespace Reading

/-- A move is a step of the reader. -/
theorem moved {client : Client} {t : Task} {job : Job t.op.Answer} {events : List Event}
    {s s' : Session} (h : t.Reading id q a) (hm : t.job.Move client s events job s') :
    ∃ p, ∃ progress : Progress q.Answer, t.stand = .asking p ∧
      s.advance client id p q = (progress, s') ∧
      stand ⟨t.op, job, t.log ++ events⟩ = .after progress ∧
      ((∀ v, progress = .ready v → v = a) → Reading id q a ⟨t.op, job, t.log ++ events⟩) := by
  cases h with
  | asking h p own =>
    cases hm with
    | @answered _ _ _ _ _ _ _ v ha =>
      refine ⟨p, .ready v, rfl, ha, rfl, fun hv => ?_⟩
      rw [hv v rfl]
      exact .told h _
    | refused ha => exact ⟨p, _, rfl, ha, rfl, fun _ => .refused h _ _⟩
    | suspended ha => exact ⟨p, _, rfl, ha, rfl, fun _ => .asking h _ _⟩
  | told h own => cases hm
  | refused h message own => cases hm

/-- An operation that has ended has what it wanted or has failed. -/
theorem of_ended {t : Task} (h : t.Reading id q a) (hend : t.Ended) :
    t.stand.phase? = none ∧ t.job.failure? = t.stand.message?.map .client ∧
      ∀ read, Reads id q t.op.job read →
        t.job = .done (.ok (read a)) ∨ ∃ e, t.job = .done (.error e) := by
  cases h with
  | asking h p own => cases hend
  | told h own => exact ⟨rfl, rfl, fun read hread => Or.inl (by rw [h.unique hread])⟩
  | refused h message own => exact ⟨rfl, rfl, fun _ _ => Or.inr ⟨_, rfl⟩⟩

end Reading

/-- The failures of operations, told by where they stand. -/
theorem failures_eq {T : Multiset Task}
    (h : ∀ t ∈ T, t.job.failure? = t.stand.message?.map .client) :
    T.filterMap (fun t => t.job.failure?) = (Stand.messages (T.map stand)).map .client := by
  induction T using Multiset.induction with
  | empty => rfl
  | cons t T ih =>
    obtain ⟨ht, hT⟩ := Multiset.forall_mem_cons.mp h
    rw [Multiset.filterMap_cons, ih hT, ht, Multiset.map_cons]
    cases t.stand <;> simp [Stand.message?]

end Task

/-! ## Requests that fail -/

namespace Faults

/-- The message of a request that was made to fail. -/
def message (n : Nat) : String := "request " ++ Decimal.toText n ++ " failed"

/-- Requests with different numbers fail with different messages. -/
theorem message_injective : Function.Injective message := by
  intro m n h
  have htext : Decimal.toText m = Decimal.toText n := by
    have hlist := congrArg String.toList h
    simpa [message, ← String.toList_inj] using hlist
  exact Decimal.toText_inj htext

/-- Some request is not made to fail, because only finitely many are. -/
theorem exists_first (f : Faults) (kind : RequestKind) (k : Nat) :
    ∃ first, IsLeast {n | 0 < n ∧ f.hits kind (k + n) = false} first := by
  have hspared : ∀ numbers : List Nat, ∃ n, 0 < n ∧ numbers.contains (k + n) = false := by
    intro numbers
    obtain ⟨m, hm⟩ := numbers.toFinset.exists_nat_subset_range
    refine ⟨m + 1, Nat.succ_pos m, ?_⟩
    by_contra hmem
    have hlt := hm (List.mem_toFinset.mpr (by simpa using hmem : k + (m + 1) ∈ numbers))
    have := Finset.mem_range.mp hlt
    omega
  have hex : ∃ n, 0 < n ∧ f.hits kind (k + n) = false := by
    cases kind <;> exact hspared _
  classical
  exact ⟨Nat.find hex, Nat.find_spec hex, fun n hn => Nat.find_min' hex hn⟩

end Faults

/-- What requests have cost callers that have all ended. The requests of the kind are those behind
the first `k`, and the `first` of them is the first one that is not made to fail. -/
structure Paid (kind : RequestKind) (k first callers : Nat) (failed : Multiset Failure)
    (made : Requests) : Prop where
  /-- Each request that has failed has cost one caller, which tells its message. -/
  failures : failed = (Multiset.range (min callers (first - 1))).map fun i =>
    .client (Faults.message (k + i + 1))
  distinct : failed.Nodup
  requests : made.count kind = k + min callers first

/-! ## Callers that share a fetch -/

/-- What has ended does not move. -/
theorem Job.Move.result?_eq_none {client : Client} {α : Type} {job job' : Job α} {s s' : Session}
    {events : List Event} (hm : Move client job s events job' s') : job.result? = none := by
  cases hm <;> rfl

variable {client : Client} {id k r : Nat} {q : Query} {a : q.Answer} {s : Session}
  {T others : Multiset Task} {c : Caches}

/-- A step of one of those who share what is to be fetched from a stack keeps to it. -/
theorem Caches.Step.shared {c' : Caches} {made made' : Requests} {p : Phase}
    {progress : Progress q.Answer} {stands : Multiset Stand}
    (hs : c.Step client made p q progress c' made') (hq : q.kind ≠ .exports)
    (ha : client.cloud.reply c.stack c.region q = some a)
    (h : Shared (client.faults.hits q.kind) Faults.message a q.kind k r (.asking p ::ₘ stands)
      (c.known q) (c.lock q.kind) made) : (∀ v, progress = .ready v → v = a) ∧
      ∃ r', Shared (client.faults.hits q.kind) Faults.message a q.kind k r'
        (.after progress ::ₘ stands) (c'.known q) (c'.lock q.kind) made' := by
  cases hs with
  | inventory hs =>
    have hget : client.cloud.inventories.get? c.stack = some a := ha
    have hanswer : ∀ n, client.answer (.stackResources c.stack) n
        = if client.faults.hits .stackResources n then .error (Faults.message n) else .ok a :=
      fun n => by simp [Client.answer, Cloud.answer, hget, Request.kind, Faults.message]
    refine ⟨?_, h.step hanswer hs⟩
    rintro v rfl
    exact h.ready_eq hanswer hs
  | urlSuffix hs =>
    obtain rfl := Option.some.inj ha
    have hanswer : ∀ n, client.answer (.urlSuffix c.region) n
        = if client.faults.hits .urlSuffix n then .error (Faults.message n)
          else .ok (client.cloud.urlSuffix.getD (Cloud.defaultUrlSuffix c.region)) := fun _ => rfl
    refine ⟨?_, h.step hanswer hs⟩
    rintro v rfl
    exact h.ready_eq hanswer hs
  | exportNamed hs => exact absurd rfl hq

/-- The operations all read the same answer from the caches of a stack, and share it there. -/
structure Sharing (client : Client) (id : Nat) (q : Query) (a : q.Answer) (k r : Nat)
    (T : Multiset Task) (s : Session) (c : Caches) : Prop where
  reading : ∀ t ∈ T, t.Reading id q a
  opened : s.caches[id]? = some c
  reply : client.cloud.reply c.stack c.region q = some a
  shared : Shared (client.faults.hits q.kind) Faults.message a q.kind k r (T.map Task.stand)
    (c.known q) (c.lock q.kind) s.requests

namespace Sharing

/-- Operations that begin together, where nobody knows the answer yet. -/
theorem begun {ops : List Operation} (hc : s.caches[id]? = some c)
    (hfree : (c.lock q.kind).queue = []) (hfresh : c.known q = none)
    (ha : client.cloud.reply c.stack c.region q = some a)
    (hops : ∀ op ∈ ops, ∃ read, Reads id q op.job read) :
    Sharing client id q a (s.requests.count q.kind) 0
      (ops.map fun op => ⟨op, op.job, []⟩ : List Task) s c := by
  have hbegun : ∀ t ∈ (ops.map fun op => ⟨op, op.job, []⟩ : List Task),
      t.Reading id q a ∧ t.stand = .asking .arriving := by
    intro t ht
    obtain ⟨op, hop, rfl⟩ := List.mem_map.mp ht
    obtain ⟨read, hread⟩ := hops op hop
    exact Task.reading_begun hread
  refine ⟨fun t ht => (hbegun t (Multiset.mem_coe.mp ht)).1, hc, ha, ?_⟩
  have hstands : Multiset.map Task.stand (ops.map fun op => ⟨op, op.job, []⟩ : List Task)
      = .replicate ops.length (.asking .arriving) := by
    refine Multiset.eq_replicate.mpr ⟨by simp, fun stand hstand => ?_⟩
    obtain ⟨t, ht, rfl⟩ := Multiset.mem_map.mp hstand
    exact (hbegun t (Multiset.mem_coe.mp ht)).2
  rw [hstands, hfresh]
  exact .fresh _ hfree

/-- **Whoever goes on keeps to it.** -/
theorem advance (h : Sharing client id q a k r T s c) (hq : q.kind ≠ .exports)
    (hothers : ∀ t ∈ others, t.Ended) {y : Multiset Task × Session}
    (hadv : Advances client (T + others, s) y) :
    ∃ T' c' r' s', y = (T' + others, s') ∧ Sharing client id q a k r' T' s' c' := by
  obtain ⟨t, tasks, events, job, s', htasks, rfl, hm, -⟩ := hadv.exists_move
  -- The others have ended, so it is one of the callers that goes on.
  have ht : t ∈ T := by
    refine (Multiset.mem_add.mp (htasks ▸ Multiset.mem_cons_self t tasks)).resolve_right ?_
    intro ht
    have hend := hothers t ht
    rw [Task.Ended, hm.result?_eq_none] at hend
    cases hend
  obtain ⟨rest, rfl⟩ := Multiset.exists_cons_of_mem ht
  rw [Multiset.cons_add, Multiset.cons_inj_right] at htasks
  subst htasks
  rw [← Multiset.cons_add]
  obtain ⟨p, progress, hstand, hadvance, hstand', hreading⟩ := (h.reading t ht).moved hm
  have hshared := h.shared
  rw [Multiset.map_cons, hstand] at hshared
  rcases Session.advance_cases hadvance with ⟨c₀, c', made, hc, ha, rfl, -⟩ | ⟨hnone, -⟩
  · obtain rfl := Option.some.inj (h.opened.symm.trans hc)
    have hs := Caches.advance_step ha
    obtain ⟨hready, r', hshared'⟩ := hs.shared hq h.reply hshared
    refine ⟨_, c', r', _, rfl, ?_, ?_, ?_, ?_⟩
    · exact Multiset.forall_mem_cons.mpr
        ⟨hreading hready, fun u hu => h.reading u (Multiset.mem_cons_of_mem hu)⟩
    · exact List.getElem?_set_self (List.getElem?_eq_some_iff.mp hc).1
    · rw [hs.stack_eq.1, hs.stack_eq.2]
      exact h.reply
    · rw [Multiset.map_cons, hstand']
      exact hshared'
  · rw [h.opened] at hnone
    cases hnone

/-- However far they get, they keep to it. -/
theorem reached (h : Sharing client id q a k r T s c) (hq : q.kind ≠ .exports)
    (hothers : ∀ t ∈ others, t.Ended) {y : Multiset Task × Session}
    (hr : Relation.ReflTransGen (Advances client) (T + others, s) y) :
    ∃ T' c' r' s', y = (T' + others, s') ∧ Sharing client id q a k r' T' s' c' := by
  induction hr with
  | refl => exact ⟨T, c, r, s, rfl, h⟩
  | tail _ hadv ih =>
    obtain ⟨_, _, _, _, rfl, h'⟩ := ih
    exact h'.advance hq hothers hadv

/-- When they all have ended, each request that has failed has cost one of them, and the others have
what they wanted. -/
theorem of_ended (h : Sharing client id q a k r T s c) (hend : ∀ t ∈ T, t.Ended) {first : Nat}
    (hfirst : IsLeast {n | 0 < n ∧ client.faults.hits q.kind (k + n) = false} first) :
    Paid q.kind k first T.card (T.filterMap fun t => t.job.failure?) s.requests ∧
      ∀ t ∈ T, ∀ read, Reads id q t.op.job read →
        t.job = .done (.ok (read a)) ∨ ∃ e, t.job = .done (.error e) := by
  have hphases : Stand.phases (T.map Task.stand) = 0 := by
    refine Multiset.eq_zero_of_forall_notMem fun p hp => ?_
    obtain ⟨stand, hstand, hp⟩ := (Multiset.mem_filterMap _ _).mp hp
    obtain ⟨t, ht, rfl⟩ := Multiset.mem_map.mp hstand
    rw [((h.reading t ht).of_ended (hend t ht)).1] at hp
    cases hp
  have hfailures := Task.failures_eq fun t ht => ((h.reading t ht).of_ended (hend t ht)).2.1
  obtain ⟨hr, hcount⟩ := h.shared.of_ended hphases hfirst
  rw [Multiset.card_map] at hr hcount
  rw [h.shared.refused, hr, Multiset.map_map] at hfailures
  refine ⟨⟨hfailures, ?_, hcount⟩, fun t ht => ((h.reading t ht).of_ended (hend t ht)).2.2⟩
  rw [hfailures]
  refine (Multiset.nodup_range _).map fun i j hij => ?_
  have hn := Faults.message_injective (Failure.client.inj hij)
  omega

end Sharing

/-! ## What it costs -/

/-- Operations that have begun together and wanted the same answer have all ended: what the requests
have cost is paid, and whoever has not failed has what it wanted. -/
structure Settled (id : Nat) (q : Query) (a : q.Answer) (k first : Nat) (ops : List Operation)
    (T : Multiset Task) (made : Requests) : Prop where
  same : T.map Task.op = ops
  paid : Paid q.kind k first ops.length (T.filterMap fun t => t.job.failure?) made
  told : ∀ t ∈ T, ∀ read, Reads id q t.op.job read →
    t.job = .done (.ok (read a)) ∨ ∃ e, t.job = .done (.error e)

namespace Caller

variable {β : Type}

theorem failure?_job (e : Caller β) : e.job.failure? = e.task.job.failure? := by
  rw [Caller.job]
  rcases e.task.job with (_ | _) | _ | _ | _ | _ <;> rfl

theorem forall₂_of_requests {γ : Type*} {calls : List γ} {es : List (Caller β)}
    {f : γ → (op : Operation) × (op.Answer → β)} (h : es.map request = calls.map f) :
    List.Forall₂ (fun call e => request e = f call) calls es := by
  have heq : List.Forall₂ Eq (calls.map f) (es.map request) := List.forall₂_eq_eq_eq ▸ h.symm
  rw [List.forall₂_map_left_iff, List.forall₂_map_right_iff] at heq
  exact heq.imp fun _ _ he => he.symm

end Caller

namespace Run

variable {log : List Event} {first : Nat}

/-- What callers that begin together get to when they all have ended. -/
theorem settled_of_reached (h : Run client log others s) (hothers : ∀ t ∈ others, t.Ended)
    (hc : s.caches[id]? = some c) (hq : q.kind ≠ .exports) (hfresh : c.known q = none)
    (ha : client.cloud.reply c.stack c.region q = some a)
    (hfirst : IsLeast {n | 0 < n ∧ client.faults.hits q.kind (s.requests.count q.kind + n) = false}
      first) {ops : List Operation} (hops : ∀ op ∈ ops, ∃ read, Reads id q op.job read)
    {y : Multiset Task × Session} (hr : Relation.ReflTransGen (Advances client)
      ((ops.map fun op => ⟨op, op.job, []⟩ : List Task) + others, s) y)
    (hend : ∀ t ∈ y.1, t.Ended) : ∃ T, y.1 = T + others ∧
      Settled id q a (s.requests.count q.kind) first ops T y.2.requests := by
  have hfree : (c.lock q.kind).queue = [] := h.free hothers c (List.mem_of_getElem? hc) q.kind
  have hsame := Advances.map_op_of_reached hr
  obtain ⟨T, c', r, s', rfl, hsharing⟩ :=
    (Sharing.begun hc hfree hfresh ha hops).reached hq hothers hr
  replace hsame : T.map Task.op = ops := by
    rw [Multiset.map_add, Multiset.map_add, Multiset.map_coe, List.map_map] at hsame
    exact (add_right_cancel hsame).trans (congrArg _ (List.map_id ops))
  have hcard : T.card = ops.length := by
    rw [← Multiset.card_map Task.op, hsame, Multiset.coe_card]
  obtain ⟨hpaid, htold⟩ := hsharing.of_ended
    (fun t ht => hend t (Multiset.mem_add.mpr (Or.inl ht))) hfirst
  exact ⟨T, rfl, hsame, hcard ▸ hpaid, htold⟩

/-- What calls that go on in rounds get to. -/
theorem exists_rounds_settled (h : Run client log others s) (hopen : ∀ t ∈ others, t.op.Open s)
    (hothers : ∀ t ∈ others, t.Ended) (hc : s.caches[id]? = some c) (hq : q.kind ≠ .exports)
    (hfresh : c.known q = none) (ha : client.cloud.reply c.stack c.region q = some a)
    (hfirst : IsLeast {n | 0 < n ∧ client.faults.hits q.kind (s.requests.count q.kind + n) = false}
      first) {β : Type} {calls : List (Job β × (q.Answer → β))}
    (hcalls : ∀ call ∈ calls, Reads id q call.1 call.2) :
    ∃ n, ∀ m ≥ n, ∃ jobs s', Job.rounds client m (calls.map Prod.fst) s = (jobs, s') ∧
      Paid q.kind (s.requests.count q.kind) first calls.length
        (jobs.filterMap failure? : List Failure) s'.requests ∧
      List.Forall₂ (fun call job =>
        job = .done (.ok (call.2 a)) ∨ ∃ e, job = .done (.error e)) calls jobs := by
  -- A call is the question to the caches, and what is made of the answer is left to its caller.
  let requests : List ((op : Operation) × (op.Answer → β)) :=
    calls.map fun call => ⟨.query id q, call.2⟩
  have hjobs : (requests.map fun r => (Caller.begin r).job) = calls.map Prod.fst := by
    rw [List.map_map]
    exact List.map_congr_left fun call hcall => (hcalls call hcall).eq_ask.symm
  have hasked : ∀ r ∈ requests, r.1 = .query id q := by
    intro r hr
    obtain ⟨call, -, rfl⟩ := List.mem_map.mp hr
    rfl
  have hrequests : ∀ r ∈ requests, r.1.Open s := by
    intro r hr i hi
    rw [hasked r hr] at hi
    obtain rfl := Option.some.inj hi
    exact (List.getElem?_eq_some_iff.mp hc).1
  have hreads : ∀ op ∈ requests.map Sigma.fst, ∃ read, Reads id q op.job read := by
    intro op hop
    obtain ⟨r, hr, rfl⟩ := List.mem_map.mp hop
    exact hasked r hr ▸ ⟨_, .query q⟩
  obtain ⟨n, hn⟩ := h.exists_rounds_begun hopen hothers hrequests
  refine ⟨n, fun m hm => ?_⟩
  obtain ⟨es', s', hrounds, hsame, hr, hend⟩ := hn m hm
  obtain ⟨T, hT, -, hpaid, htold⟩ := h.settled_of_reached hothers hc hq hfresh ha hfirst hreads hr
    (Caller.forall_ended hend hothers)
  obtain rfl : T = es'.map Caller.task := (add_right_cancel hT).symm
  rw [List.length_map, List.length_map] at hpaid
  refine ⟨es'.map Caller.job, s', hjobs ▸ hrounds, ?_, ?_⟩
  · convert hpaid using 1
    rw [Multiset.filterMap_coe, List.filterMap_map, List.filterMap_map]
    exact congrArg _ (List.filterMap_congr fun e _ => Caller.failure?_job e)
  · obtain ⟨hlength, hzip⟩ := List.forall₂_iff_zip.mp (Caller.forall₂_of_requests hsame)
    rw [List.forall₂_map_right_iff]
    refine List.forall₂_iff_zip.mpr ⟨hlength, fun {call e} hmem => ?_⟩
    have he : e ∈ es' := (List.of_mem_zip hmem).2
    have hrequest := hzip hmem
    obtain ⟨⟨op, job, own⟩, use⟩ := e
    cases hrequest
    have ht : ⟨.query id q, job, own⟩ ∈ (es'.map Caller.task : Multiset Task) :=
      Multiset.mem_coe.mpr (List.mem_map_of_mem he)
    rcases htold _ ht _ (.query q) with hjob | ⟨e, hjob⟩
    · obtain rfl : job = .done (.ok a) := hjob
      exact Or.inl rfl
    · obtain rfl : job = .done (.error e) := hjob
      exact Or.inr ⟨e, rfl⟩

end Run

/-- **A request that fails costs one caller.** Where the resources of a stack that is there, or its
URL suffix, are not known yet, let callers begin together that all want the one or the other. Of the
requests that follow let the `first` be the first one that is not made to fail. Then, of `n`
callers, `min n (first - 1)` fail, each with the message of another request, all others have what
they wanted, and `min n first` requests are made:

* for operations, in whatever order they go on as long as something can
* for calls that go on in rounds, when there are enough of them -/
theorem Run.failure_costs_one {log : List Event} (h : Run client log others s)
    (hopen : ∀ t ∈ others, t.op.Open s) (hothers : ∀ t ∈ others, t.Ended)
    (hc : s.caches[id]? = some c) (hq : q.kind ≠ .exports) (hfresh : c.known q = none)
    (ha : client.cloud.reply c.stack c.region q = some a) :
    let k := s.requests.count q.kind
    ∃ first, IsLeast {n | 0 < n ∧ client.faults.hits q.kind (k + n) = false} first ∧
      (∀ ops : List Operation, (∀ op ∈ ops, op.Open s ∧ ∃ read, Reads id q op.job read) →
        ∀ state : Nat → Multiset Task × Session,
        state 0 = ((ops.map fun op => ⟨op, op.job, []⟩ : List Task) + others, s) →
        (∀ n, Advances client (state n) (state (n + 1)) ∨ ∀ x, ¬ Advances client (state n) x) →
        ∃ n T, (state n).1 = T + others ∧
          Settled id q a k first ops T (state n).2.requests) ∧
      ∀ {β : Type} (calls : List (Job β × (q.Answer → β))),
        (∀ call ∈ calls, Reads id q call.1 call.2) →
        ∃ n, ∀ m ≥ n, ∃ jobs s', Job.rounds client m (calls.map Prod.fst) s = (jobs, s') ∧
          Paid q.kind k first calls.length (jobs.filterMap failure? : List Failure) s'.requests ∧
          List.Forall₂ (fun call job =>
            job = .done (.ok (call.2 a)) ∨ ∃ e, job = .done (.error e)) calls jobs := by
  intro k
  obtain ⟨first, hfirst⟩ := client.faults.exists_first q.kind k
  refine ⟨first, hfirst, fun ops hops state hstart hstate => ?_, fun {β} calls hcalls =>
    h.exists_rounds_settled hopen hothers hc hq hfresh ha hfirst hcalls⟩
  obtain ⟨n, hr, hend⟩ := (h.begun_all ops).exists_reached
    (Operation.open_begun (fun op hop => (hops op hop).1) hopen) hstart hstate
  exact ⟨n, h.settled_of_reached hothers hc hq hfresh ha hfirst (fun op hop => (hops op hop).2) hr
    hend⟩

/-- Two evaluations of the URL suffix, where the first request for it fails. -/
theorem failure_costs_one_of_two_evaluations :
    let client : Client := ⟨{ urlSuffix := some "suffix" }, { urlSuffix := [1] }⟩
    let s : Session := ⟨{}, [{ stack := "stack", region := "region" }]⟩
    let suffix := (Evaluator.first []).evaluate (.object [("Ref", .string "AWS::URLSuffix")])
    ∃ n, ∀ m ≥ n, ∃ jobs s', Job.rounds client m [suffix, suffix] s = (jobs, s') ∧
      (jobs.filterMap failure? : Multiset Failure) = {.client (Faults.message 1)} ∧
      s'.requests.urlSuffix = 2 := by
  intro client s suffix
  have hidle := Task.first_idle [] s
  have hc : s.caches[0]? = some { stack := "stack", region := "region" } := rfl
  obtain ⟨first, hfirst, -, hrounds⟩ := Run.failure_costs_one (q := .urlSuffix) (a := "suffix")
    (Run.first client []) (fun t ht => (hidle t ht).1) (fun t ht => (hidle t ht).2) hc
    (by simp [Query.kind]) rfl rfl
  have htwo : first = 2 := by
    refine hfirst.unique ⟨⟨Nat.two_pos, rfl⟩, fun n hn => ?_⟩
    obtain ⟨hpos, hspared⟩ := hn
    by_contra hlt
    obtain rfl : n = 1 := by omega
    cases hspared
  have hreads : Reads 0 .urlSuffix suffix Json.string := .urlSuffix (.first []) rfl
  obtain ⟨n, hn⟩ := hrounds [(suffix, .string), (suffix, .string)]
    (List.forall_mem_cons.mpr ⟨hreads, List.forall_mem_singleton.mpr hreads⟩)
  refine ⟨n, fun m hm => ?_⟩
  obtain ⟨jobs, s', hr, hpaid, -⟩ := hn m hm
  rw [htwo] at hpaid
  exact ⟨jobs, s', hr, hpaid.failures, hpaid.requests⟩

end StackExpr
