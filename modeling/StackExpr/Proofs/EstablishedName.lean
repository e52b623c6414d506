import StackExpr.Proofs.Attribution
import StackExpr.Proofs.Script
/-!
# Names of resources, as well as they can be told

The name of a resource is established by trying: the expression for it is evaluated, and if that
gives no name, the deployed resource is asked for instead. So **the question may be replaced by an
evaluation, and by a question for the physical name where the evaluation gives none**
(`Run.exists_attempt`), in any run: what the evaluation has left undone, be it a request that was
called off, is left as any other evaluation leaves it. Therefore the name that is established is the
value of the expression, or else what any other evaluator would tell (`Run.name_established`).
-/

namespace StackExpr

open Job

/-! ## Attempts as operations -/

namespace Script

variable {α : Type}

/-- The operations of an attempt to evaluate a value that has come to this as one job: the
evaluation, and those of a script that goes on with its value or for want of it. -/
inductive Tries (ev : Evaluator) (v : Json) (next : Except EvalError Json → Script α) :
    Job α → List Event → Multiset Task → Prop where
  /-- The evaluation is on its way. -/
  | now (part : Job Json) (own : List Event) :
    Tries ev v next (.attempt part fun r => (next r).job) own (⟨.evaluate ev v, part, own⟩ ::ₘ 0)
  /-- The evaluation has ended, with a value or for want of one. -/
  | later (r : Except EvalError Json) {job : Job α} {own own' : List Event} {tasks : Multiset Task}
    (h : (next r).Plays job own' tasks) : Tries ev v next job (own ++ own')
      (⟨.evaluate ev v, .done (r.mapError .evaluation), own⟩ ::ₘ tasks)
  /-- The evaluation has failed for another reason. -/
  | abandoned {e : Failure} (hne : ∀ e', e ≠ .evaluation e') (own : List Event) :
    Tries ev v next (.done (.error e)) own (⟨.evaluate ev v, .done (.error e), own⟩ ::ₘ 0)

variable {client : Client} {log : List Event} {others : Multiset Task} {s : Session}
  {ev : Evaluator} {v : Json} {next : Except EvalError Json → Script α}

/-- **An attempt goes on as its job does.** -/
theorem Tries.exists_moved {job job' : Job α} {own events : List Event} {pieces : Multiset Task}
    {s' : Session} (hp : Tries ev v next job own pieces) (hm : job.Move client s events job' s')
    (h : Run client log (pieces + others) s) :
    ∃ pieces', Tries ev v next job' (own ++ events) pieces' ∧
      Run client (log ++ events) (pieces' + others) s' := by
  cases hp with
  | now part own =>
    rw [Multiset.cons_add, zero_add] at h
    cases hm with
    | @attempting _ _ _ _ _ part' _ hm =>
      refine ⟨_, .now part' (own ++ events), ?_⟩
      rw [Multiset.cons_add, zero_add]
      exact h.moved hm
    | attempted r =>
      obtain ⟨begun, hbegun, h⟩ := (next r).exists_begun h
      rw [Multiset.add_cons, ← Multiset.cons_add] at h
      rw [List.append_nil log]
      exact ⟨_, .later r hbegun, h⟩
    | abandoned hne =>
      refine ⟨_, .abandoned hne (own ++ []), ?_⟩
      rwa [List.append_nil, List.append_nil, Multiset.cons_add, zero_add]
  | later r hp =>
    rw [Multiset.cons_add, ← Multiset.add_cons] at h
    obtain ⟨pieces', hp', h'⟩ := hp.exists_moved hm h
    rw [Multiset.add_cons, ← Multiset.cons_add] at h'
    exact ⟨_, List.append_assoc _ _ events ▸ .later r hp', h'⟩
  | abandoned hne own => cases hm

end Script

/-- **An attempt may be replaced** by the evaluation that is attempted and what goes on with its
result. The log and the session are the same. -/
theorem Run.exists_tries {client : Client} {log : List Event} {others : Multiset Task} {s : Session}
    {op : Operation} {job : Job op.Answer} {own : List Event} {ev : Evaluator} {v : Json}
    {next : Except EvalError Json → Script op.Answer}
    (h : Run client log (⟨op, job, own⟩ ::ₘ others) s)
    (hjob : op.job = .attempt (ev.evaluate v) fun r => (next r).job) :
    ∃ pieces, Script.Tries ev v next job own pieces ∧ Run client log (pieces + others) s := by
  refine h.exists_pieces (R := Script.Tries ev v next) (fun h => ?_)
    (fun hp hm h => hp.exists_moved hm h) rfl
  rw [hjob]
  refine ⟨_, .now (ev.evaluate v) [], ?_⟩
  rw [Multiset.cons_add, zero_add]
  exact h.begun (.evaluate ev v)

/-! ## Names -/

/-- The name that the outcome of an evaluation gives: the text of a value other than null. -/
def nameOf? : Except EvalError Json → Option String
  | .ok .null => none
  | .ok v => v.text?
  | .error _ => none

theorem nameOf?_eq_some {r : Except EvalError Json} {name : String} :
    nameOf? r = some name ↔ ∃ v, r = .ok v ∧ v ≠ .null ∧ v.text? = some name := by
  unfold nameOf?
  split
  · simp
  · next hnull =>
    simp only [Except.ok.injEq, exists_eq_left']
    exact ⟨fun h => ⟨fun hv => hnull hv, h⟩, fun h => h.2⟩
  · simp

namespace Evaluator

/-- What remains to be done for a name when the expression for it has been tried. -/
def afterName (ev : Evaluator) (id : String) (r : Except EvalError Json) :
    Script (Option String) :=
  match nameOf? r with
  | some name => .ends (.ok (some name))
  | none => .puts (.physicalName ev id) fun name? => .ends (.ok name?)

theorem establishPhysicalName?_some (ev : Evaluator) (id : String) (v : Json) :
    ev.establishPhysicalName? id (some v)
      = .attempt (ev.evaluate v) fun r => (ev.afterName id r).job := by
  have hphysical : ev.physicalName? id
      = (Script.puts (.physicalName ev id) fun name? => .ends (.ok name?)).job :=
    (bind_pure (ev.physicalName? id)).symm
  refine congrArg (Job.attempt (ev.evaluate v)) (funext fun r => ?_)
  unfold afterName nameOf?
  rcases r with _ | _ | _ | _ | _ | _ | _
  all_goals first | exact hphysical | rfl

end Evaluator

/-- **The establishing of a name may be replaced by an evaluation**, and, where that gives no name,
by a question for the physical name. -/
theorem Run.exists_attempt {client : Client} {log own : List Event} {others : Multiset Task}
    {s : Session} {ev : Evaluator} {id : String} {v : Json} {r : Except Failure (Option String)}
    (h : Run client log (⟨.establishPhysicalName ev id (some v), .done r, own⟩ ::ₘ others) s) :
    (∃ e, (∀ e', e ≠ .evaluation e') ∧ r = .error e ∧
      Run client log (⟨.evaluate ev v, .done (.error e), own⟩ ::ₘ others) s) ∨
    (∃ tried name, nameOf? tried = some name ∧ r = .ok (some name) ∧
      Run client log
        (⟨.evaluate ev v, .done (tried.mapError .evaluation), own⟩ ::ₘ others) s) ∨
    ∃ tried own₁ own₂, nameOf? tried = none ∧ own = own₁ ++ own₂ ∧
      Run client log (⟨.evaluate ev v, .done (tried.mapError .evaluation), own₁⟩ ::ₘ
        ⟨.physicalName ev id, .done r, own₂⟩ ::ₘ others) s := by
  obtain ⟨pieces, hp, h'⟩ := h.exists_tries (ev.establishPhysicalName?_some id v)
  generalize hjob : Job.done r = job at hp
  cases hp with
  | now part own => cases hjob
  | abandoned hne own =>
    cases hjob
    rw [Multiset.cons_add, zero_add] at h'
    exact Or.inl ⟨_, hne, rfl, h'⟩
  | @later tried _ own₁ own₂ tasks hp =>
    subst hjob
    rw [Multiset.cons_add, ← Multiset.add_cons] at h'
    obtain ⟨pieces, hends, h'⟩ := hp.exists_ended h'
    rw [Multiset.add_cons] at h'
    unfold Evaluator.afterName at hends
    cases hname : nameOf? tried with
    | some name =>
      rw [hname] at hends
      cases hends
      rw [zero_add] at h'
      rw [List.append_nil]
      exact Or.inr (Or.inl ⟨tried, name, hname, rfl, h'⟩)
    | none =>
      rw [hname] at hends
      have hphysical : pieces = ⟨.physicalName ev id, .done r, own₂⟩ ::ₘ 0 := by
        cases hends with
        | failed e own => rfl
        | later hends =>
          cases hends
          rw [List.append_nil]
      rw [hphysical, Multiset.cons_add, zero_add] at h'
      exact Or.inr (Or.inr ⟨tried, own₁, own₂, hname, rfl, h'⟩)

/-! ## The physical name that a stack tells -/

/-- The physical name of a resource of a stack, as the cloud tells it. -/
def Cloud.physicalName? (cloud : Cloud) (stack id : String) : Except Failure (Option String) :=
  match cloud.answer (.stackResources stack) with
  | .ok resources => .ok ((resources.find? fun r => r.logicalId == id).bind (·.physicalId))
  | .error message => .error (.client message)

/-- With this client, a stack that is opened anew tells this as the physical name of a resource; no
request is made to fail for it. -/
def Client.TellsName (client : Client) (st : Stack) (id : String)
    (r : Except Failure (Option String)) : Prop :=
  ∃ pages log tasks s ev opening own, Run client log tasks s ∧
    ⟨.openStack pages st.name st.template st.context st.nested, .done (.ok ev), opening⟩ ∈ tasks ∧
    ⟨.physicalName ev id, .done r, own⟩ ∈ tasks ∧ ∀ e ∈ own, e.injected client = false

theorem Evaluator.ensures_physicalName?_eq {cloud : Cloud} {s : Session} {ev : Evaluator}
    (ho : s.Opened ev.caches ev.stackName ev.context.region) (id : String) :
    (ev.physicalName? id).Ensures (cloud.quotingWorld s) fun r =>
      r = cloud.physicalName? ev.stackName id := by
  constructor
  · intro resources hresources
    obtain ⟨c, hc, hreply⟩ := hresources fun hq => nomatch hq
    obtain ⟨c', hc', hstack, -⟩ := ho
    obtain rfl := Option.some.inj (hc.symm.trans hc')
    have hreply : cloud.inventories.get? c.stack = some resources := hreply
    rw [Cloud.physicalName?, ← hstack, Cloud.answer, hreply]
    rfl
  · intro message hm
    obtain ⟨-, hmessage⟩ := Cloud.refuses_quotingWorld ho hm
    rw [Cloud.physicalName?, hmessage]

section Runs

variable {client : Client} {log own : List Event} {tasks : Multiset Task} {s : Session}
  {ev : Evaluator} {id : String} {r : Except Failure (Option String)}

/-- Whoever asks for a physical name is told the one that the cloud tells. -/
theorem Run.physicalName_eq (h : Run client log tasks s)
    (ho : s.Opened ev.caches ev.stackName ev.context.region)
    (ht : ⟨.physicalName ev id, .done r, own⟩ ∈ tasks)
    (hown : ∀ e ∈ own, e.injected client = false) :
    r = client.cloud.physicalName? ev.stackName id :=
  h.ensures (fun _ _ _ ho => ho) ht (fun e he => h.admits_quoting ht he (hown e he))
    (Evaluator.ensures_physicalName?_eq ho id)

theorem Client.TellsName.eq {st : Stack} (h : client.TellsName st id r) :
    r = client.cloud.physicalName? st.name id := by
  obtain ⟨pages, log, tasks, s, ev, opening, own, h, hopened, ht, hown⟩ := h
  rw [h.physicalName_eq (h.fit (.opened hopened)).opened ht hown, ← h.stack_of_opened hopened]
  rfl

theorem Cloud.tellsName (cloud : Cloud) (st : Stack) (id : String) :
    Client.TellsName ⟨cloud, .none⟩ st id (cloud.physicalName? st.name id) := by
  obtain ⟨ev, opening, s, hstack, h⟩ := Run.opened ⟨cloud, .none⟩ 0 st
  obtain ⟨log, tasks, s', own, r, h', -, hkept, ht⟩ :=
    h.exists_answer (.opened (Multiset.mem_cons_self _ _))
      (show (Operation.physicalName ev id).caches? = some ev.caches from rfl)
  have hopened := hkept _ (Multiset.mem_cons_self _ _) ⟨rfl, fun _ hid => nomatch hid⟩
  have htells : Client.TellsName ⟨cloud, .none⟩ st id r :=
    ⟨0, log, tasks, s', ev, opening, own, h', hopened, ht, fun e _ => not_injected e⟩
  exact htells.eq ▸ htells

/-- What the cloud tells is what any evaluator tells that is opened anew for the stack. -/
theorem Cloud.tells_of_eq {cloud : Cloud} {st : Stack} (hr : r = cloud.physicalName? st.name id) :
    (∀ faults r', Client.TellsName ⟨cloud, faults⟩ st id r' → r' = r) ∧
      Client.TellsName ⟨cloud, .none⟩ st id r :=
  ⟨fun _ _ h' => h'.eq.trans hr.symm, hr ▸ cloud.tellsName st id⟩

/-- **A name is established from the expression for it, or from the deployed resource.** The
question is answered in the end, and never with an evaluation error. It can be split into an
evaluation of the expression and what is done after that: nothing if the evaluation gives a text or
fails for another reason than want of a value, and otherwise a question for the physical name. As
long as no request of this question is made to fail, it is answered as by any evaluator that is
opened anew for the stack. -/
theorem Run.name_established (h : Run client log tasks s) (hm : Made tasks ev) (id : String)
    (name : Option Json) :
    (∃ log' tasks' s' own r, Run client log' tasks' s' ∧ Made tasks' ev ∧
      ⟨.establishPhysicalName ev id name, .done r, own⟩ ∈ tasks') ∧
    ∀ r own others, tasks = ⟨.establishPhysicalName ev id name, .done r, own⟩ ::ₘ others →
      (∀ e, r ≠ .error (.evaluation e)) ∧
      (name = none → (∀ e ∈ own, e.injected client = false) →
        (∀ faults r', Client.TellsName ⟨client.cloud, faults⟩ ev.stack id r' → r' = r) ∧
          Client.TellsName ⟨client.cloud, .none⟩ ev.stack id r) ∧
      ∀ v, name = some v → ∃ tried own₁ own₂ fallback, own = own₁ ++ own₂ ∧
        Run client log (⟨.evaluate ev v, .done tried, own₁⟩ ::ₘ (fallback + others)) s ∧
        (∀ w text, tried = .ok w → w ≠ .null → w.text? = some text →
          r = .ok (some text) ∧ own₂ = [] ∧ fallback = 0) ∧
        (∀ e, tried = .error e → (∀ e', e ≠ .evaluation e') →
          r = .error e ∧ own₂ = [] ∧ fallback = 0) ∧
        ((tried = .ok .null ∨ (∃ vs, tried = .ok (.array vs)) ∨ (∃ fs, tried = .ok (.object fs)) ∨
            ∃ e, tried = .error (.evaluation e)) →
          fallback = {⟨.physicalName ev id, .done r, own₂⟩} ∧
          ((∀ e ∈ own₂, e.injected client = false) →
            (∀ faults r', Client.TellsName ⟨client.cloud, faults⟩ ev.stack id r' → r' = r) ∧
              Client.TellsName ⟨client.cloud, .none⟩ ev.stack id r)) := by
  have ho := (h.fit hm).opened
  refine ⟨?_, fun r own others htasks => ⟨?_, ?_, ?_⟩⟩
  · obtain ⟨log', tasks', s', own, r, h', hm', -, ht⟩ := h.exists_answer hm
      (show (Operation.establishPhysicalName ev id name).caches? = some ev.caches from rfl)
    exact ⟨log', tasks', s', own, r, h', hm', ht⟩
  · rintro e rfl
    have ht := htasks ▸ Multiset.mem_cons_self _ others
    rcases h.canEnd ht _ (Evaluator.ensures_establishPhysicalName? id name) _ rfl with
      ⟨message, he⟩ | ⟨he, -⟩
    · cases he
    · cases he
  · rintro rfl hown
    have ht : (⟨.establishPhysicalName ev id none, .done r, own⟩ : Task) ∈ tasks :=
      htasks ▸ Multiset.mem_cons_self _ others
    exact Cloud.tells_of_eq (h.ensures (fun _ _ _ ho => ho) ht
      (fun e he => h.admits_quoting ht he (hown e he)) (Evaluator.ensures_physicalName?_eq ho id))
  · rintro v rfl
    subst htasks
    rcases h.exists_attempt with ⟨e, hne, rfl, h'⟩ | ⟨tried, text, hname, rfl, h'⟩ |
      ⟨tried, own₁, own₂, hname, rfl, h'⟩
    · refine ⟨.error e, own, [], 0, (List.append_nil own).symm, by rwa [zero_add],
        (fun _ _ hok => nomatch hok), ?_, fun hnone => ?_⟩
      · rintro _ ⟨⟩ -
        exact ⟨rfl, rfl, rfl⟩
      · rcases hnone with hok | ⟨_, hok⟩ | ⟨_, hok⟩ | ⟨e', he⟩
        · cases hok
        · cases hok
        · cases hok
        · exact absurd (Except.error.inj he) (hne e')
    · obtain ⟨w, rfl, hnull, htext⟩ := nameOf?_eq_some.mp hname
      refine ⟨.ok w, own, [], 0, (List.append_nil own).symm, by rwa [zero_add], ?_,
        (fun _ herr => nomatch herr), fun hnone => ?_⟩
      · rintro _ text' ⟨⟩ - htext'
        obtain rfl := Option.some.inj (htext.symm.trans htext')
        exact ⟨rfl, rfl, rfl⟩
      · rcases hnone with hok | ⟨_, hok⟩ | ⟨_, hok⟩ | ⟨e', he⟩
        · exact absurd (Except.ok.inj hok) hnull
        · obtain rfl := Except.ok.inj hok
          cases htext
        · obtain rfl := Except.ok.inj hok
          cases htext
        · cases he
    · have ht : (⟨.physicalName ev id, .done r, own₂⟩ : Task) ∈
          (⟨.evaluate ev v, .done (tried.mapError .evaluation), own₁⟩ : Task) ::ₘ
            ⟨.physicalName ev id, .done r, own₂⟩ ::ₘ others :=
        Multiset.mem_cons_of_mem (Multiset.mem_cons_self _ _)
      refine ⟨tried.mapError .evaluation, own₁, own₂, {⟨.physicalName ev id, .done r, own₂⟩}, rfl,
        by rwa [Multiset.singleton_add], fun w text hok hnull htext => ?_, fun e herr hne => ?_,
        fun _ => ⟨rfl, fun hown => Cloud.tells_of_eq (h'.physicalName_eq ho ht hown)⟩⟩
      · cases tried with
        | ok w' =>
          obtain rfl := Except.ok.inj hok
          cases hname.symm.trans (nameOf?_eq_some.mpr ⟨_, rfl, hnull, htext⟩)
        | error e => cases hok
      · cases tried with
        | ok w => cases herr
        | error e' => exact absurd (Except.error.inj herr).symm (hne e')

end Runs

/-- The expression fails while the resources of the stack are being asked for. The request is called
off and made again to find the physical name. -/
theorem name_established_of_calledOff : ∃ log tasks s ev own,
    let v : Json := .array [.object [("Ref", .string "X")], .object [("Fn::If", .array [])]]
    Run ⟨.listing "X", .none⟩ log tasks s ∧ Made tasks ev ∧
      ⟨.establishPhysicalName ev "X" (some v), .done (.ok (some "own")), own⟩ ∈ tasks ∧
      (own.countP fun e => e.asks 0 .stackResources) = 2 ∧
      Client.TellsName ⟨.listing "X", .none⟩ ev.stack "X" (.ok (some "own")) := by
  let client : Client := ⟨.listing "X", .none⟩
  let ev : Evaluator := .first []
  let v : Json := .array [.object [("Ref", .string "X")], .object [("Fn::If", .array [])]]
  let err : EvalError := .unsupportedFunction "Fn::If"
  let resources : List StackResource := [⟨"X", some "own", stackType⟩]
  let s (value : Option (List StackResource)) (lock : Lock) (made : Nat) : Session :=
    ⟨{ stackResources := made },
      [{ stack := "stack", region := "region", inventory := ⟨value, lock⟩ }]⟩
  let one : Lock := (Lock.enter {}).2
  let two : Lock := (one.leave 0).enter.2
  let asked (n : Nat) : Event := .asked 0 (.stackResources "stack") n
  let opener : Task := .first []
  let op : Operation := .establishPhysicalName ev "X" (some v)
  obtain ⟨first, next, hvalue⟩ : ∃ first next, ev.evaluate v =
      .gather [.ask 0 .inventory .arriving first, .done (.error (.evaluation err))] next :=
    ⟨_, _, rfl⟩
  obtain ⟨tell, hjob, htell⟩ : ∃ tell, (ev.afterName "X" (.error err)).job =
      .ask 0 .inventory .arriving tell ∧ tell resources = .done (.ok (some "own")) := ⟨_, rfl, rfl⟩
  let after (r : Except EvalError Json) : Job (Option String) := (ev.afterName "X" r).job
  let trying (p : Phase) (own : List Event) : Task :=
    ⟨op, .attempt (.gather [.ask 0 .inventory p first, .done (.error (.evaluation err))] next)
      after, own⟩
  let telling (p : Phase) (own : List Event) : Task := ⟨op, .ask 0 .inventory p tell, own⟩
  let own : List Event := [asked 1, asked 2, .answered 0 (.stackResources "stack") 2 resources,
    .read 0 .inventory resources]
  let told : Task := ⟨op, .done (.ok (some "own")), own⟩
  have hop : op.job = .attempt (.gather [.ask 0 .inventory .arriving first,
      .done (.error (.evaluation err))] next) after :=
    (ev.establishPhysicalName?_some "X" v).trans (congrArg (Job.attempt · after) hvalue)
  have h₁ : Run client [] (trying .arriving [] ::ₘ opener ::ₘ 0) (s none {} 0) :=
    Run.begun_as hop (Run.first client [])
  have h₂ : Run client [asked 1] (trying (.fetching 0 1 none) [asked 1] ::ₘ opener ::ₘ 0)
      (s none one 1) :=
    .moved (.attempting (.part [] [.done (.error (.evaluation err))]
      (@Job.Move.suspended client _ _ _ 0 .inventory .arriving (.fetching 0 1 none) _ rfl))) h₁
  have h₃ : Run client [asked 1] (⟨op, .attempt (.done (.error (.evaluation err))) after,
      [asked 1]⟩ ::ₘ opener ::ₘ 0) (s none (one.leave 0) 1) :=
    .moved (.attempting (@Job.Move.calledOff client _ _
      [.ask 0 .inventory (.fetching 0 1 none) first] [] (.evaluation err) next _ (.refl _)
      (Or.inl (Nat.le_add_left 2 28)))) h₂
  have h₄ : Run client [asked 1] (telling .arriving [asked 1] ::ₘ opener ::ₘ 0)
      (s none (one.leave 0) 1) := by
    have h := Run.moved (@Job.Move.attempted client _ _ after (.error err)) h₃
    rwa [show after (.error err) = .ask 0 .inventory .arriving tell from hjob] at h
  have h₅ : Run client [asked 1, asked 2]
      (telling (.fetching 1 2 none) [asked 1, asked 2] ::ₘ opener ::ₘ 0) (s none two 2) :=
    .moved (@Job.Move.suspended client _ _ _ 0 .inventory .arriving (.fetching 1 2 none) _ rfl) h₄
  have h₆ : Run client own (told ::ₘ opener ::ₘ 0) (s (some resources) (two.leave 1) 2) := by
    have h := Run.moved
      (@Job.Move.answered client _ _ _ 0 .inventory (.fetching 1 2 none) _ resources rfl) h₅
    rw [htell] at h
    exact h
  have hmade : Made (told ::ₘ opener ::ₘ 0) ev :=
    .first (Multiset.mem_cons_of_mem (Multiset.mem_cons_self opener 0))
  refine ⟨_, _, _, ev, own, h₆, hmade, Multiset.mem_cons_self _ _, rfl, ?_⟩
  obtain ⟨-, -, hname⟩ := (h₆.name_established hmade "X" (some v)).2 _ _ _ rfl
  obtain ⟨tried, own₁, own₂, fallback, -, h, -, herr, hfallback⟩ := hname v rfl
  have hvoid : Plain.Fails client.cloud ev.stack (Expr.ofJson v) (.evaluation err) :=
    @Plain.Fails.element _ _ [.ref "X"] [] _ _ (.invalid _ _) (Or.inl (by decide))
  have htried := h.toOption_evaluate .nil (Multiset.mem_cons_self _ _) (h₆.fit hmade).opened
    fun e _ => not_injected e
  cases tried with
  | ok w => exact absurd ⟨_, htried.symm⟩ hvoid.not_worth
  | error e =>
    cases e with
    | evaluation e =>
      obtain ⟨-, htells⟩ := hfallback (Or.inr (Or.inr (Or.inr ⟨e, rfl⟩)))
      exact (htells fun e _ => not_injected e).2
    | client message => cases (herr _ rfl fun _ he => nomatch he).1
    | tooDeep => cases (herr _ rfl fun _ he => nomatch he).1

end StackExpr
