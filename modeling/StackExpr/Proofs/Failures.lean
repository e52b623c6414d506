import StackExpr.Proofs.Answers
import StackExpr.Proofs.GivingUp
import StackExpr.Proofs.Job.Confined
/-!
# Whose failures an operation reports

Several operations may want the same thing, and only one of them asks the cloud for it. If that
request fails, it is a failure of this operation alone: the others go on, and one of them asks
again. An operation keeps account of its requests (`Accounted`): whatever it has under way it has
asked for itself, and so it has whatever was refused. Therefore
**an operation fails for the cloud's sake only if a request of its own has failed**
(`Run.exists_refused`). Where none has, an evaluation fails only for want of a value, or gives up
because the expressions have no end, and questions about deployed resources do not fail
(`Run.failures_kept_apart`).
-/

namespace StackExpr

/-! ## Requests that are made and refused -/

namespace Session

variable {s s' : Session} {client : Client} {id : Nat} {p : Phase} {q : Query}

/-- Whoever has a request under way after a step has made it in the step, or had it before. -/
theorem asked_mem_events {t n : Nat} {token : Option String}
    (ha : s.advance client id p q = (.suspended (.fetching t n token), s')) :
    p = .fetching t n token ∨ ∃ c, s.caches[id]? = some c ∧
      .asked id (c.request token q) n
        ∈ s.events client id q p (.suspended (.fetching t n token)) := by
  rcases advance_cases ha with ⟨c, c', made, hc, -, -, he⟩ | ⟨-, hp, -⟩
  · refine Or.inr ⟨c, hc, ?_⟩
    rw [he]
    exact List.mem_append_right _ (List.mem_singleton.mpr rfl)
  · cases hp
    exact Or.inl rfl

/-- Whatever is refused was under way. -/
theorem fetching_of_refused {i n : Nat} {r : Request} {message : String}
    {progress : Progress q.Answer}
    (h : .refused i r n message ∈ s.events client id q p progress) :
    i = id ∧ ∃ c t token, s.caches[id]? = some c ∧ p = .fetching t n token ∧
      r = c.request token q ∧ client.answer r n = .error message := by
  unfold events at h
  split at h
  · next c hc =>
    obtain ⟨t, token, hp, rfl, he⟩ := Caches.fetching_of_refused h
    exact ⟨Caches.caches_of_mem_events _ h, c, t, token, hc, hp, rfl, he⟩
  · cases h

theorem Opened.unique {stack stack' region region' : String} (h : s.Opened id stack region)
    (h' : s.Opened id stack' region') : stack = stack' ∧ region = region' := by
  obtain ⟨c, hc, rfl, rfl⟩ := h
  obtain ⟨c', hc', rfl, rfl⟩ := h'
  obtain rfl := Option.some.inj (hc.symm.trans hc')
  exact ⟨rfl, rfl⟩

end Session

namespace Job

variable {client : Client} {α : Type} {job job' : Job α} {s s' : Session} {events : List Event}

/-- Whoever has a request under way after a move has made it in the move, or had it before. -/
theorem Move.asked (hm : Move client job s events job' s') (ho : job.Orderly) :
    ∀ r ∈ job'.leaves, ∀ t n token, r.phase = .fetching t n token →
      r ∈ job.leaves ∨ ∃ c, s.caches[r.caches]? = some c ∧
        .asked r.caches (c.request token r.query) n ∈ events := by
  have hnext : ∀ {β : Type} {next : Job β}, (∀ r ∈ next.leaves, r.phase = .arriving) →
      ∀ r ∈ next.leaves, ∀ {t n token}, r.phase ≠ .fetching t n token := by
    intro β next h r hr t n token hp
    rw [h r hr] at hp
    cases hp
  induction hm with
  | opened stack region next => exact fun r hr _ _ _ hp => absurd hp (hnext (ho _).2 r hr)
  | answered ha => exact fun r hr _ _ _ hp => absurd hp (hnext (ho _).2 r hr)
  | refused ha => exact fun r hr => absurd hr (Multiset.notMem_zero r)
  | suspended ha =>
    intro r hr t n token hp
    obtain rfl := Multiset.mem_singleton.mp hr
    obtain rfl : _ = Phase.fetching t n token := hp
    rcases Session.asked_mem_events ha with rfl | hc
    · exact Or.inl hr
    · exact Or.inr hc
  | part before after hm ih =>
    intro r hr t n token hp
    obtain ⟨-, hjob, -⟩ := orderlyAll_append.mp ho.1
    simp only [leaves, leavesAll_append, leavesAll, Multiset.mem_add] at hr ⊢
    rcases hr with hr | hr | hr
    · exact Or.inl (Or.inl hr)
    · exact (ih hjob r hr t n token hp).imp_left fun hr => Or.inr (Or.inl hr)
    · exact Or.inl (Or.inr (Or.inr hr))
  | gathered hvs => exact fun r hr _ _ _ hp => absurd hp (hnext (ho.2 _).2 r hr)
  | calledOff order hperm hc => exact fun r hr => absurd hr (Multiset.notMem_zero r)
  | attempting hm ih => exact ih ho.1
  | attempted v => exact fun r hr _ _ _ hp => absurd hp (hnext (ho.2 _).2 r hr)
  | abandoned hne => exact fun r hr => absurd hr (Multiset.notMem_zero r)

/-- Whatever is refused in a move was under way before it. -/
theorem Move.refused_mem (hm : Move client job s events job' s') {id n : Nat} {r : Request}
    {message : String} (h : .refused id r n message ∈ events) :
    ∃ reader ∈ job.leaves, reader.caches = id ∧ ∃ c t token, s.caches[id]? = some c ∧
      reader.phase = .fetching t n token ∧ r = c.request token reader.query ∧
      client.answer r n = .error message := by
  have hleaf : ∀ {s : Session} {i : Nat} {q : Query} {p : Phase} {progress : Progress q.Answer},
      .refused id r n message ∈ s.events client i q p progress →
      ∃ reader ∈ ({⟨i, q, p⟩} : Multiset Reader), reader.caches = id ∧
        ∃ c t token, s.caches[id]? = some c ∧ reader.phase = .fetching t n token ∧
          r = c.request token reader.query ∧ client.answer r n = .error message := by
    intro s i q p progress h
    obtain ⟨rfl, hc⟩ := Session.fetching_of_refused h
    exact ⟨_, Multiset.mem_singleton_self _, rfl, hc⟩
  induction hm with
  | opened stack region next => cases h
  | answered ha => exact hleaf h
  | refused ha => exact hleaf h
  | suspended ha => exact hleaf h
  | part before after hm ih =>
    obtain ⟨reader, hr, hreader⟩ := ih h
    refine ⟨reader, ?_, hreader⟩
    simp only [leaves, leavesAll_append, leavesAll, Multiset.mem_add]
    exact Or.inr (Or.inl hr)
  | gathered hvs => cases h
  | calledOff order hperm hc => cases h
  | attempting hm ih => exact ih h
  | attempted v => cases h
  | abandoned hne => cases h

end Job

theorem Caches.request_congr {c c' : Caches} (h : c.stack = c'.stack ∧ c.region = c'.region)
    (token : Option String) (q : Query) : c.request token q = c'.request token q := by
  cases q with
  | inventory => exact congrArg _ h.1
  | urlSuffix => exact congrArg _ h.2
  | exportNamed name => rfl

/-! ## Account of the requests of an operation -/

/-- What an operation has under way it has asked for, and so it has what was refused. -/
structure Accounted (client : Client) (s : Session) {α : Type} (job : Job α) (own : List Event) :
    Prop where
  orderly : job.Orderly
  asked : ∀ r ∈ job.leaves, ∀ t n token, r.phase = .fetching t n token →
    ∃ c : Caches, s.Opened r.caches c.stack c.region ∧
      .asked r.caches (c.request token r.query) n ∈ own
  refused : ∀ id r n message, .refused id r n message ∈ own →
    .asked id r n ∈ own ∧ client.answer r n = .error message

/-- **Operations keep account of their requests.** -/
theorem Run.accounted {client : Client} {log : List Event} {tasks : Multiset Task} {s : Session}
    (h : Run client log tasks s) : ∀ t ∈ tasks, Accounted client s t.job t.log := by
  refine h.keeps (P := fun _ job own => Accounted client s job own) (fun _ _ _ ho => ho)
    (fun op => ⟨op.idle_job.1, fun r hr t n token hp => ?_, by simp⟩) ?_
  · rw [op.idle_job.2 r hr] at hp
    cases hp
  · intro op job job' own events s₁ s₂ hm ho ih
    -- What the move finds open is open in the end, as the caches of the same stack.
    have ho' : ∀ {id : Nat} {c : Caches}, s₁.caches[id]? = some c →
        s.Opened id c.stack c.region := fun hc => ho _ _ _ (hm.opened_mono ⟨_, hc, rfl, rfl⟩)
    refine ⟨hm.orderly ih.orderly, fun r hr t n token hp => ?_, fun id r n message hr => ?_⟩
    · rcases hm.asked ih.orderly r hr t n token hp with hr | ⟨c, hc, he⟩
      · obtain ⟨c, hc, he⟩ := ih.asked r hr t n token hp
        exact ⟨c, hc, List.mem_append_left _ he⟩
      · exact ⟨c, ho' hc, List.mem_append_right _ he⟩
    · rcases List.mem_append.mp hr with hr | hr
      · obtain ⟨ha, he⟩ := ih.refused id r n message hr
        exact ⟨List.mem_append_left _ ha, he⟩
      · obtain ⟨reader, hreader, rfl, c, t, token, hc, hp, rfl, he⟩ := hm.refused_mem hr
        obtain ⟨c', hc', ha⟩ := ih.asked reader hreader t n token hp
        rw [Caches.request_congr ((ho' hc).unique hc')]
        exact ⟨List.mem_append_left _ ha, Caches.request_congr ((ho' hc).unique hc') token _ ▸ he⟩

/-! ## Why operations fail -/

/-- **An operation fails for the cloud's sake only if a request of its own has failed**, with that
message and at caches that it is meant for. -/
theorem Run.exists_refused {client : Client} {log own : List Event} {tasks : Multiset Task}
    {s : Session} {op : Operation} {message : String} {among : Nat → Prop}
    (h : Run client log tasks s) (ht : ⟨op, .done (.error (.client message)), own⟩ ∈ tasks)
    (hop : op.Inside s.Opened among) : ∃ id r n, among id ∧ .asked id r n ∈ own ∧
      .refused id r n message ∈ own ∧ client.answer r n = .error message := by
  have hc : Job.Blames (s.met own) among (.error (.client message) : Except Failure op.Answer) :=
    h.confined (w := s.met own) (fun _ _ _ ho => ho) ht (fun _ he => s.admits_met he) hop
  obtain ⟨id, kind, hid, r, n, -, hr⟩ := hc message rfl
  obtain ⟨ha, he⟩ := (h.accounted _ ht).refused id r n message hr
  exact ⟨id, r, n, hid, ha, hr, he⟩

namespace Evaluator

/-- The caches of the evaluator, and those that can be opened for a stack in its tree. -/
def Reaches (ev : Evaluator) (s : Session) (id : Nat) : Prop :=
  id = ev.caches ∨ ∃ e ∈ NestedStack.preorder ev.nested, ∃ name,
    e.2.physicalName = some name ∧ s.Opened id name ev.context.region

theorem inside_reaches (ev : Evaluator) (s : Session) : ev.Inside s.Opened (ev.Reaches s) :=
  ⟨Or.inl rfl, fun e he name hname _ ho => Or.inr ⟨e, he, name, hname, ho⟩⟩

variable {w : World} {ev : Evaluator}

/-- What is read off the inventory fails only for the cloud's sake. -/
theorem ensures_inventory_map {α : Type} (f : List StackResource → α) :
    (ev.inventory.bind fun resources => pure (f resources)).Ensures w fun r =>
      ∀ e, r = .error e → ∃ message, e = .client message :=
  ⟨fun _ _ _ he => (nomatch he), fun message _ _ he => ⟨message, (Except.error.inj he).symm⟩⟩

theorem ensures_physicalName? (id : String) : (ev.physicalName? id).Ensures w fun r =>
    ∀ e, r = .error e → ∃ message, e = .client message := by
  unfold physicalName? deployed?
  show ((ev.inventory.bind _).bind _).Ensures w _
  rw [Job.bind_bind]
  exact ensures_inventory_map _

theorem ensures_logicalId? (name : String) : (ev.logicalId? name).Ensures w fun r =>
    ∀ e, r = .error e → ∃ message, e = .client message := ensures_inventory_map _

/-- To establish a name fails only for the cloud's sake, or where the expression for the name gives
up. -/
theorem ensures_establishPhysicalName? (id : String) (name : Option Json) :
    (ev.establishPhysicalName? id name).Ensures w fun r => ∀ e, r = .error e →
      (∃ message, e = .client message) ∨
        e = .tooDeep ∧ ∃ v ∈ name, ev.GivesUp w (ev.depth + 1) (Expr.ofJson v) := by
  have hname : (ev.physicalName? id).Ensures w fun r => ∀ e, r = .error e →
      (∃ message, e = .client message) ∨
        e = .tooDeep ∧ ∃ v ∈ name, ev.GivesUp w (ev.depth + 1) (Expr.ofJson v) :=
    (ensures_physicalName? id).mono fun r hr e he => Or.inl (hr e he)
  unfold establishPhysicalName?
  split
  · exact hname
  · next v =>
    refine Job.ensures_bind (P := fun r => ∀ e, r = .error e → (∃ message, e = .client message) ∨
      e = .tooDeep ∧ ev.GivesUp w (ev.depth + 1) (Expr.ofJson v)) (fun r _ => ?_) (fun e he => ?_)
      ⟨_, Job.ensures_canEnd (ev.evaluate v), fun _ _ _ he => (nomatch he), fun e hne he => ?_⟩
    · split
      · exact hname
      · exact hname
      · split
        · exact fun e he => (nomatch he)
        · exact hname
    · rintro _ ⟨⟩
      exact (he e rfl).imp_right fun hdeep => ⟨hdeep.1, v, rfl, hdeep.2⟩
    · rintro _ ⟨⟩
      cases e with
      | evaluation e' => exact absurd rfl (hne e')
      | client message => exact Or.inl ⟨message, rfl⟩
      | tooDeep => exact Or.inr ⟨rfl, he⟩

end Evaluator

/-- **Failures of the cloud and values that cannot be told are kept apart.** An evaluation fails for
the cloud's sake only if a request of its own has failed, made at the caches of its evaluator or of
a stack nested in it, and it fails with the message of that request; nor does any other operation
fail because a request of somebody else has failed. As long as its own requests do not fail, an
evaluation fails only for want of a value, or gives up because expressions lead to each other
without end; and questions about deployed resources do not fail, except that the expression for a
name may give up in the same way. -/
theorem Run.failures_kept_apart {client : Client} {log : List Event} {tasks : Multiset Task}
    {s : Session} (h : Run client log tasks s) :
    (∀ ev v message own, ⟨.evaluate ev v, .done (.error (.client message)), own⟩ ∈ tasks →
      ∃ id r n, ev.Reaches s id ∧ .asked id r n ∈ own ∧ .refused id r n message ∈ own ∧
        client.answer r n = .error message) ∧
    (∀ op message own, ⟨op, .done (.error (.client message)), own⟩ ∈ tasks →
      ∃ id r n, .asked id r n ∈ own ∧ .refused id r n message ∈ own ∧
        client.answer r n = .error message) ∧
    ∀ own, (∀ id r n message, .asked id r n ∈ own → client.answer r n ≠ .error message) →
      (∀ ev v e, Made tasks ev → ⟨.evaluate ev v, .done (.error e), own⟩ ∈ tasks →
        (∃ e', e = .evaluation e') ∨
          e = .tooDeep ∧ ∀ n, ev.GivesUp (s.met own) n (Expr.ofJson v)) ∧
      (∀ ev id name e, Made tasks ev →
        ⟨.establishPhysicalName ev id name, .done (.error e), own⟩ ∈ tasks →
        e = .tooDeep ∧ ∃ v ∈ name, ∀ n, ev.GivesUp (s.met own) n (Expr.ofJson v)) ∧
      (∀ ev id r, ⟨.physicalName ev id, .done r, own⟩ ∈ tasks → ∃ a, r = .ok a) ∧
      ∀ ev name r, ⟨.logicalId ev name, .done r, own⟩ ∈ tasks → ∃ a, r = .ok a := by
  have hall : ∀ op message own, ⟨op, .done (.error (.client message)), own⟩ ∈ tasks →
      ∃ id r n, .asked id r n ∈ own ∧ .refused id r n message ∈ own ∧
        client.answer r n = .error message := by
    intro op message own ht
    obtain ⟨id, r, n, -, hr⟩ := h.exists_refused ht (op.inside_true s.Opened)
    exact ⟨id, r, n, hr⟩
  refine ⟨fun ev v message own ht => h.exists_refused ht (ev.inside_reaches s), hall,
    fun own hown => ?_⟩
  have hclient : ∀ op message, ⟨op, .done (.error (.client message)), own⟩ ∉ tasks := by
    intro op message ht
    obtain ⟨id, r, n, ha, -, hr⟩ := hall op message own ht
    exact hown id r n message ha hr
  refine ⟨fun ev v e hm ht => ?_, fun ev id name e hm ht => ?_, fun ev id r ht => ?_,
    fun ev name r ht => ?_⟩
  · cases e with
    | evaluation e' => exact Or.inl ⟨e', rfl⟩
    | client message => exact absurd ht (hclient _ message)
    | tooDeep =>
      have hgives : ev.GivesUp (s.met own) (ev.depth + 1) (Expr.ofJson v) := h.canEnd ht
      exact Or.inr ⟨rfl, hgives.of_enough (Nat.le_succ_of_le (h.fit hm).deep)⟩
  · rcases h.canEnd ht _ (Evaluator.ensures_establishPhysicalName? id name) e rfl with
      ⟨message, rfl⟩ | ⟨rfl, v, hv, hgives⟩
    · exact absurd ht (hclient _ message)
    · exact ⟨rfl, v, hv, hgives.of_enough (Nat.le_succ_of_le (h.fit hm).deep)⟩
  · cases r with
    | ok a => exact ⟨a, rfl⟩
    | error e =>
      obtain ⟨message, rfl⟩ := h.canEnd ht _ (Evaluator.ensures_physicalName? id) e rfl
      exact absurd ht (hclient _ message)
  · cases r with
    | ok a => exact ⟨a, rfl⟩
    | error e =>
      obtain ⟨message, rfl⟩ := h.canEnd ht _ (Evaluator.ensures_logicalId? name) e rfl
      exact absurd ht (hclient _ message)

/-- Two evaluations want the URL suffix, and the request for it fails. It is a failure of the one
that has made it; the other has waited, asks again and has its value. -/
theorem failures_kept_apart_of_refusal : ∃ log tasks s ev v message own own',
    Run ⟨{ urlSuffix := some "suffix" }, { urlSuffix := [1] }⟩ log tasks s ∧
      ⟨.evaluate ev v, .done (.error (.client message)), own⟩ ∈ tasks ∧
      ⟨.evaluate ev v, .done (.ok (.string "suffix")), own'⟩ ∈ tasks ∧
      ∃ id r n, ev.Reaches s id ∧ .asked id r n ∈ own ∧ .asked id r n ∉ own' := by
  let client : Client := ⟨{ urlSuffix := some "suffix" }, { urlSuffix := [1] }⟩
  let ev : Evaluator := .first []
  let v : Json := .object [("Ref", .string "AWS::URLSuffix")]
  let message : String := "request " ++ Decimal.toText 1 ++ " failed"
  let s (value : Option String) (lock : Lock) (made : Nat) : Session :=
    ⟨{ urlSuffix := made }, [{ stack := "stack", region := "region", urlSuffix := ⟨value, lock⟩ }]⟩
  let two : Lock := (Lock.enter {}).2.enter.2
  let asked (n : Nat) : Event := .asked 0 (.urlSuffix "region") n
  let refused : Event := .refused 0 (.urlSuffix "region") 1 message
  let answered : Event := .answered 0 (.urlSuffix "region") 2 "suffix"
  let read : Event := .read 0 .urlSuffix "suffix"
  let opener : Task := .first []
  obtain ⟨next, hjob, hnext⟩ : ∃ next, ev.evaluate v = .ask 0 .urlSuffix .arriving next ∧
      next "suffix" = .done (.ok (.string "suffix")) := ⟨_, rfl, rfl⟩
  let t (p : Phase) (own : List Event) : Task := ⟨.evaluate ev v, .ask 0 .urlSuffix p next, own⟩
  let failed : Task := ⟨.evaluate ev v, .done (.error (.client message)), [asked 1, refused]⟩
  let ended : Task := ⟨.evaluate ev v, .done (.ok (.string "suffix")), [asked 2, answered, read]⟩
  have h₁ : Run client [asked 1, refused] (failed ::ₘ t (.waiting 1) [] ::ₘ opener ::ₘ 0)
      (s none (two.leave 0) 1) :=
    .moved (@Job.Move.refused client _ _ _ 0 .urlSuffix (.fetching 0 1 none) _ message rfl)
      (Run.two_readers client (.evaluate ev v) (.evaluate ev v) hjob hjob)
  rw [Multiset.cons_swap] at h₁
  have h₂ : Run client [asked 1, refused, asked 2]
      (t (.fetching 1 2 none) [asked 2] ::ₘ failed ::ₘ opener ::ₘ 0) (s none (two.leave 0) 2) :=
    .moved (@Job.Move.suspended client _ _ _ 0 .urlSuffix (.waiting 1)
      (.fetching 1 2 none) _ rfl) h₁
  have h₃ : Run client ([asked 1, refused] ++ ended.log) (ended ::ₘ failed ::ₘ opener ::ₘ 0)
      (s (some "suffix") ((two.leave 0).leave 1) 2) := by
    have h := Run.moved
      (@Job.Move.answered client _ _ _ 0 .urlSuffix (.fetching 1 2 none) _ "suffix" rfl) h₂
    rw [hnext] at h
    exact h
  have hfailed : failed ∈ ended ::ₘ failed ::ₘ opener ::ₘ 0 :=
    Multiset.mem_cons_of_mem (Multiset.mem_cons_self _ _)
  obtain ⟨id, r, n, hid, ha, hr, -⟩ := (Run.failures_kept_apart h₃).1 ev v message _ hfailed
  refine ⟨_, _, _, ev, v, message, _, _, h₃, hfailed, Multiset.mem_cons_self _ _, id, r, n, hid, ha,
    fun ha' => ?_⟩
  simp [asked, refused, answered, read] at hr ha'
  omega

end StackExpr
