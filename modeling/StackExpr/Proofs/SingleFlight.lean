import StackExpr.Proofs.Evaluators
/-!
# Resources and the URL suffix are fetched once

The evaluations of a stack share one list of resources and one URL suffix. `FetchedOnce` says how
the log, the readers and what is known fit together: as long as nothing is known no request was
answered, afterwards exactly one was, and whoever has read has read its answer.

* `Caches.Traffic.fetchedOnce`: **the traffic at the caches of a stack keeps to it**
* `Run.single_flight`: **at most one request of a kind is under way, none follows one that was
  answered, and its answer is what everybody reads**
-/

namespace StackExpr

/-- What is fetched in one piece is told by the kind of the request. -/
theorem Query.eq_of_kind {q q' : Query} (hq : q.kind ≠ .exports) (h : q'.kind = q.kind) :
    q' = q := by
  cases q <;> cases q' <;> first | rfl | exact absurd rfl hq | cases h

namespace Caches

/-- What is known of the answer to a question. -/
def known (c : Caches) : (q : Query) → Option q.Answer
  | .inventory => c.inventory.value
  | .urlSuffix => c.urlSuffix.value
  | .exportNamed name => (c.exports.found.get? name).map some

/-- The answer to a request that is the answer to a question; a page of exports answers none. -/
def response (c : Caches) : (q : Query) → q.Answer → (c.request none q).Response
  | .inventory, rs => rs
  | .urlSuffix, suffix => suffix
  | .exportNamed _, _ => ⟨[], none⟩

/-- A request is answered, and with it a question. -/
def served (c : Caches) (id : Nat) (q : Query) (number : Nat) (a : q.Answer) : Event :=
  .answered id (c.request none q) number (c.response q a)

/-- What a step of a reader does to what is known, and what happens then. -/
inductive Learns (client : Client) (c c' : Caches) (id : Nat) (p : Phase) (q : Query) :
    Progress q.Answer → List Event → Prop where
  | found (a : q.Answer) (h : c.known q = some a) (h' : c'.known q = some a) :
    Learns client c c' id p q (.ready a) [.read id q a]
  | waits (t : Nat) (h : c'.known q = c.known q) :
    Learns client c c' id p q (.suspended (.waiting t)) []
  | asks (t n : Nat) (h : c.known q = none) (h' : c'.known q = none) :
    Learns client c c' id p q (.suspended (.fetching t n none)) [.asked id (c.request none q) n]
  | served (n : Nat) (a : q.Answer) (hp : p.isFetching = true) (h : c'.known q = some a)
    (ha : client.answer (c.request none q) n = .ok (c.response q a)) :
    Learns client c c' id p q (.ready a) [c.served id q n a, .read id q a]
  | refused (token : Option String) (n : Nat) (message : String) (h : c'.known q = c.known q) :
    Learns client c c' id p q (.failed message) [.refused id (c.request token q) n message]

/-- Whatever is fetched in one piece is learnt like this. -/
theorem Step.learns {c c' : Caches} {client : Client} {made made' : Requests} {p : Phase}
    {q : Query} {progress : Progress q.Answer} (h : c.Step client made p q progress c' made')
    (hq : q.kind ≠ .exports) (id : Nat) :
    Learns client c c' id p q progress (c.events client id q p progress) := by
  cases h with
  | inventory h =>
    cases h with
    | found v hp hv hl =>
      rw [events_of_not_fetching hp]
      exact .found (q := .inventory) v hv hv
    | waits t hp hv hl =>
      rw [events_of_not_fetching hp]
      exact .waits t rfl
    | asks t hp hv hl =>
      rw [events_of_not_fetching hp]
      exact .asks t _ hv hv
    | served v h hl =>
      rw [events_of_ok h]
      exact .served (q := .inventory) _ v rfl rfl h
    | refused message h hl =>
      rw [events_of_error h]
      exact .refused _ _ message rfl
  | urlSuffix h =>
    cases h with
    | found v hp hv hl =>
      rw [events_of_not_fetching hp]
      exact .found (q := .urlSuffix) v hv hv
    | waits t hp hv hl =>
      rw [events_of_not_fetching hp]
      exact .waits t rfl
    | asks t hp hv hl =>
      rw [events_of_not_fetching hp]
      exact .asks t _ hv hv
    | served v h hl =>
      rw [events_of_ok h]
      exact .served (q := .urlSuffix) _ v rfl rfl h
    | refused message h hl =>
      rw [events_of_error h]
      exact .refused _ _ message rfl
  | exportNamed h => exact absurd rfl hq

end Caches

/-! ## One answer -/

/-- What is known of the answer to a question, the log and the phases of those who ask for it fit
together. -/
structure FetchedOnce (id : Nat) (log : List Event) (phases : Multiset Phase) (c : Caches)
    (q : Query) : Prop where
  unanswered : c.known q = none → log.filter (Event.answers id q.kind) = []
  answered : ∀ a, c.known q = some a →
    ∃ n, log.filter (Event.answers id q.kind) = [c.served id q n a]
  /-- Nobody fetches what is known. -/
  idle : ∀ a, c.known q = some a → ∀ p ∈ phases, p.isFetching = false
  /-- Nobody asks for what was answered. -/
  quiet : log.Pairwise fun e e' => e.answers id q.kind = true → e'.asks id q.kind = false
  read : ∀ a, .read id q a ∈ log → c.known q = some a

namespace FetchedOnce

variable {id : Nat} {log events : List Event} {phases phases' : Multiset Phase} {c c' : Caches}
  {q : Query}

theorem served_congr (hc : c'.stack = c.stack ∧ c'.region = c.region) (n : Nat) (a : q.Answer) :
    c'.served id q n a = c.served id q n a := by
  cases q with
  | inventory => simp [Caches.served, Caches.request, Caches.response, hc]
  | urlSuffix => simp [Caches.served, Caches.request, Caches.response, hc]
  | exportNamed name => rfl

/-- Whoever brings no answer, asks only for what is not known and reads only what is known leaves
everything as it is. -/
theorem of_unanswered (h : FetchedOnce id log phases c q)
    (hc : c'.stack = c.stack ∧ c'.region = c.region) (hknown : c'.known q = c.known q)
    (hphases : ∀ p ∈ phases', p.isFetching = true → p ∈ phases ∨ c.known q = none)
    (hanswers : ∀ e ∈ events, e.answers id q.kind = false)
    (hasks : ∀ e ∈ events, e.asks id q.kind = true → c.known q = none)
    (hread : ∀ a, .read id q a ∈ events → c.known q = some a) :
    FetchedOnce id (log ++ events) phases' c' q := by
  have hfilter : (log ++ events).filter (Event.answers id q.kind)
      = log.filter (Event.answers id q.kind) := by
    have hnil : events.filter (Event.answers id q.kind) = [] :=
      List.filter_eq_nil_iff.mpr fun e he => by simp [hanswers e he]
    rw [List.filter_append, hnil, List.append_nil]
  refine ⟨fun hn => ?_, fun a ha => ?_, fun a ha p hp => ?_, ?_, fun a ha => ?_⟩
  · rw [hfilter]
    exact h.unanswered (hknown ▸ hn)
  · obtain ⟨n, hn⟩ := h.answered a (hknown ▸ ha)
    exact ⟨n, by rw [hfilter, hn, served_congr hc]⟩
  · rw [hknown] at ha
    cases hf : p.isFetching with
    | false => rfl
    | true =>
      rcases hphases p hp hf with hp | hn
      · exact hf.symm.trans (h.idle a ha p hp)
      · exact absurd (hn.symm.trans ha) (by simp)
  · refine List.pairwise_append.mpr ⟨h.quiet, ?_, fun e he e' he' ha => ?_⟩
    · refine List.pairwise_of_forall_mem_list fun e he e' _ ha => ?_
      exact absurd (hanswers e he) (by simp [ha])
    · cases hf : e'.asks id q.kind with
      | false => rfl
      | true =>
        -- Nothing is known, so the earlier event is no answer.
        have hnil := h.unanswered (hasks e' he' hf)
        exact absurd ha (List.filter_eq_nil_iff.mp hnil e he)
  · rw [hknown]
    rcases List.mem_append.mp ha with ha | ha
    · exact h.read a ha
    · exact hread a ha

/-- Readers may come and go, as long as nobody new fetches. -/
theorem of_phases (h : FetchedOnce id log phases c q)
    (hc : c'.stack = c.stack ∧ c'.region = c.region) (hknown : c'.known q = c.known q)
    (hphases : ∀ p ∈ phases', p.isFetching = true → p ∈ phases) :
    FetchedOnce id log phases' c' q := by
  rw [← List.append_nil log]
  exact h.of_unanswered hc hknown (fun p hp hf => Or.inl (hphases p hp hf)) (by simp) (by simp)
    (by simp)

/-- **A step of a reader keeps to it.** -/
theorem of_learns {client : Client} {p : Phase} {progress : Progress q.Answer}
    (h : FetchedOnce id log (p ::ₘ phases) c q) (hg : Guarded (p ::ₘ phases) (c.lock q.kind))
    (hc : c'.stack = c.stack ∧ c'.region = c.region)
    (hl : Caches.Learns client c c' id p q progress events) :
    FetchedOnce id (log ++ events) (progress.phase?.elim 0 singleton + phases) c' q := by
  have hothers : ∀ p' ∈ phases, p'.isFetching = true → p' ∈ p ::ₘ phases ∨ c.known q = none :=
    fun p' hp' _ => Or.inl (Multiset.mem_cons_of_mem hp')
  cases hl with
  | found a hk hk' =>
    refine h.of_unanswered hc (hk'.trans hk.symm) ?_ ?_ ?_ ?_
    · simpa [Progress.phase?] using hothers
    · simp [Event.answers]
    · simp [Event.asks]
    · simp [hk]
  | waits t hk =>
    refine h.of_unanswered hc hk ?_ ?_ ?_ ?_
    · simpa [Progress.phase?, Phase.isFetching] using hothers
    · simp
    · simp
    · simp
  | asks t n hk hk' =>
    refine h.of_unanswered hc (hk'.trans hk.symm) ?_ ?_ ?_ ?_
    · exact fun _ _ _ => Or.inr hk
    · simp [Event.answers]
    · exact fun _ _ _ => hk
    · simp
  | served n a hp hk ha =>
    -- Nobody fetches what is known: nothing was known, so nothing was answered so far.
    have hnone : c.known q = none := by
      cases hk₀ : c.known q with
      | none => rfl
      | some a₀ =>
        have := h.idle a₀ hk₀ p (Multiset.mem_cons_self _ _)
        simp [hp] at this
    have hnil := h.unanswered hnone
    refine ⟨fun hn => ?_, fun b hb => ?_, fun b hb p' hp' => ?_, ?_, fun b hb => ?_⟩
    · simp [hk] at hn
    · obtain rfl := Option.some.inj (hk.symm.trans hb)
      refine ⟨n, ?_⟩
      rw [List.filter_append, hnil, served_congr hc]
      simp [Caches.served, Event.answers, Caches.request_kind]
    · -- The reader that was answered was the only one to fetch.
      exact hg.fetching_unique hp p' (by simpa [Progress.phase?] using hp')
    · refine List.pairwise_append.mpr ⟨h.quiet, ?_, fun e he e' _ ha => ?_⟩
      · simp [Event.asks]
      · exact absurd ha (List.filter_eq_nil_iff.mp hnil e he)
    · rcases List.mem_append.mp hb with hb | hb
      · rw [h.read b hb] at hnone
        cases hnone
      · simp [Caches.served] at hb
        rw [hk, hb]
  | refused token n message hk =>
    refine h.of_unanswered hc hk ?_ ?_ ?_ ?_
    · simpa [Progress.phase?] using hothers
    · simp [Event.answers]
    · simp [Event.asks]
    · simp

end FetchedOnce

namespace Caches

variable {c : Caches} {client : Client} {id : Nat} {log : List Event} {readers : Multiset Reader}

theorem known_of_ne {c' : Caches} {made made' : Requests} {p : Phase} {q q' : Query}
    {progress : Progress q.Answer} (hs : c.Step client made p q progress c' made')
    (hk : q.kind ≠ q'.kind) : c'.known q' = c.known q' := by
  cases hs <;> cases q' <;> first | rfl | exact absurd rfl hk

theorem known_release (p : Phase) (q q' : Query) : (c.release p q).known q' = c.known q' := by
  cases q <;> cases q' <;> rfl

/-- **The traffic at the caches of a stack keeps to it.** -/
theorem Traffic.fetchedOnce (h : c.Traffic client id log readers) {q : Query}
    (hq : q.kind ≠ .exports) : FetchedOnce id log (phasesAt readers q.kind) c q := by
  induction h with
  | opened stack region =>
    refine ⟨fun _ => rfl, fun a ha => ?_, fun a ha => ?_, .nil, by simp⟩
    · cases q <;> cases ha
    · cases q <;> cases ha
  | @arrived log readers c q' h ih =>
    refine ih.of_phases ⟨rfl, rfl⟩ rfl fun p hp hf => (phase_of_mem_cons hp).resolve_left ?_
    rintro rfl
    simp [Phase.isFetching] at hf
  | @advanced log readers c c' r progress made made' hs h ih =>
    by_cases hk : r.query.kind = q.kind
    · obtain ⟨i, q', p⟩ := r
      obtain rfl := Query.eq_of_kind hq hk
      have hg := h.guarded q'.kind
      have hcons := phasesAt_cons_self readers (⟨i, q', p⟩ : Reader)
      have hafter := phasesAt_after readers (⟨i, q', p⟩ : Reader) progress
      simp only at hcons hafter
      rw [hcons] at ih hg
      rw [hafter]
      exact ih.of_learns hg hs.stack_eq (hs.learns hq id)
    · -- A reader of something else touches neither what is known nor those who ask for it.
      rw [phasesAt_cons_of_ne hk] at ih
      rw [phasesAt_after_of_ne progress hk]
      have hkind : ∀ e ∈ c.events client id r.query r.phase progress, e.kind ≠ q.kind :=
        fun e he => by rwa [kind_of_mem_events e he]
      exact ih.of_unanswered hs.stack_eq (known_of_ne hs hk) (fun p hp _ => Or.inl hp)
        (fun e he => Event.answers_of_kind_ne (hkind e he))
        (fun e he ha => by simp [Event.asks_of_kind_ne (hkind e he)] at ha)
        (fun a ha => absurd rfl (hkind _ ha))
  | @left log readers c r h ih =>
    exact ih.of_phases (c.stack_release _ _) (known_release _ _ _)
      fun p hp _ => Multiset.mem_of_le (phasesAt_le_cons readers r q.kind) hp

end Caches

/-! ## Runs -/

/-- The requests of a kind that operations have under way at the caches with a number, by the
phases of those who wait for them. -/
def inFlight (tasks : Multiset Task) (id : Nat) (kind : RequestKind) : Multiset Phase :=
  (phasesAt (readersAt (readersIn tasks) id) kind).filter fun p => p.isFetching = true

theorem filter_logAt (log : List Event) (id : Nat) (kind : RequestKind) :
    (logAt log id).filter (Event.answers id kind) = log.filter (Event.answers id kind) := by
  rw [logAt, List.filter_filter]
  refine List.filter_congr fun e _ => ?_
  cases e with
  | answered i r n a => cases hi : (i == id) <;> simp_all [Event.answers, Event.caches]
  | _ => rfl

/-- **Resources and the URL suffix are fetched once.** In every state of every run, and for the
caches of every stack: at most one request of each kind is under way; after an answer to a request
for resources, or for the URL suffix, no other is made; and whoever has read the resources, or the
suffix, has read the answer to the one request that was answered. -/
theorem Run.single_flight {client : Client} {log : List Event} {tasks : Multiset Task} {s : Session}
    (h : Run client log tasks s) (id : Nat) :
    (∀ kind, (inFlight tasks id kind).card ≤ 1) ∧
      (∀ kind, kind ≠ .exports → log.Pairwise fun e e' =>
        e.answers id kind = true → e'.asks id kind = false) ∧
      (∀ resources, .read id .inventory resources ∈ log → ∃ stack n,
        log.filter (Event.answers id .stackResources)
          = [.answered id (.stackResources stack) n resources]) ∧
      ∀ suffix, .read id .urlSuffix suffix ∈ log → ∃ region n,
        log.filter (Event.answers id .urlSuffix) = [.answered id (.urlSuffix region) n suffix] := by
  obtain ⟨ht, -⟩ := h.traffic
  cases hc : s.caches[id]? with
  | none =>
    -- Nothing has happened at caches that were not opened.
    have hle : s.caches.length ≤ id := List.getElem?_eq_none_iff.mp hc
    have hlog : ∀ e ∈ log, e.caches ≠ id := fun e he => by
      have := ht.log_caches_lt e he
      omega
    refine ⟨fun kind => ?_, fun kind _ => ?_, fun rs hr => absurd rfl (hlog _ hr),
      fun suffix hr => absurd rfl (hlog _ hr)⟩
    · rw [inFlight, Multiset.filter_eq_nil.mpr]
      · exact Nat.zero_le 1
      · intro p hp hf
        obtain ⟨r, hr, -, rfl⟩ := exists_of_mem_phasesAt hp
        obtain ⟨hmem, rfl⟩ := Multiset.mem_filter.mp hr
        rw [ht.arriving_of_le r hmem hle] at hf
        cases hf
    · exact List.pairwise_of_forall_mem_list fun e he e' _ ha =>
        absurd (Event.caches_of_answers ha) (hlog e he)
  | some c =>
    have hct := ht.toCaches hc
    refine ⟨fun kind => (hct.guarded kind).card_fetching_le_one, fun kind hk => ?_,
      fun rs hr => ?_, fun suffix hr => ?_⟩
    · obtain ⟨q, rfl⟩ : ∃ q : Query, q.kind = kind := by
        cases kind with
        | stackResources => exact ⟨.inventory, rfl⟩
        | urlSuffix => exact ⟨.urlSuffix, rfl⟩
        | exports => exact absurd rfl hk
      have hquiet := (hct.fetchedOnce hk).quiet
      rw [logAt, List.pairwise_filter] at hquiet
      -- The log of the run may hold other caches' events in between.
      refine hquiet.imp fun {e e'} he ha => ?_
      cases hask : e'.asks id q.kind with
      | false => rfl
      | true =>
        rw [← hask]
        exact he (by simp [Event.caches_of_answers ha]) (by simp [Event.caches_of_asks hask]) ha
    · have hf := hct.fetchedOnce (q := .inventory) (by simp [Query.kind])
      obtain ⟨n, hn⟩ := hf.answered rs (hf.read rs (mem_logAt.mpr ⟨hr, rfl⟩))
      exact ⟨c.stack, n, (filter_logAt log id _).symm.trans hn⟩
    · have hf := hct.fetchedOnce (q := .urlSuffix) (by simp [Query.kind])
      obtain ⟨n, hn⟩ := hf.answered suffix (hf.read suffix (mem_logAt.mpr ⟨hr, rfl⟩))
      exact ⟨c.region, n, (filter_logAt log id _).symm.trans hn⟩

/-- Of two readers of the URL suffix the second waits while the first fetches. -/
theorem single_flight_of_two_readers : ∃ log tasks s,
    Run ⟨{ urlSuffix := some "suffix" }, .none⟩ log tasks s ∧
      log.countP (fun e => e matches .read 0 .urlSuffix _) = 2 ∧
      ∃ region n, log.filter (Event.answers 0 .urlSuffix)
        = [.answered 0 (.urlSuffix region) n "suffix"] := by
  let client : Client := ⟨{ urlSuffix := some "suffix" }, .none⟩
  let op : Operation := .query 0 .urlSuffix
  let asked : Event := .asked 0 (.urlSuffix "region") 1
  let answered : Event := .answered 0 (.urlSuffix "region") 1 "suffix"
  have h₁ : Run client [asked, answered, .read 0 .urlSuffix "suffix"]
      (⟨op, .done (.ok "suffix"), _⟩ ::ₘ ⟨op, .ask 0 .urlSuffix (.waiting 1) _, []⟩ ::ₘ _) _ :=
    .moved (@Job.Move.answered client _ _ _ 0 .urlSuffix (.fetching 0 1 none) _ "suffix" rfl)
      (Run.two_readers client op op rfl rfl)
  have h₂ : Run client
      [asked, answered, .read 0 .urlSuffix "suffix", .read 0 .urlSuffix "suffix"] _ _ :=
    .moved (@Job.Move.answered client _ _ _ 0 .urlSuffix (.waiting 1) _ "suffix" rfl)
      (.dropped h₁)
  exact ⟨_, _, _, h₂, rfl, (Run.single_flight h₂ 0).2.2.2 "suffix" (by simp)⟩

end StackExpr
