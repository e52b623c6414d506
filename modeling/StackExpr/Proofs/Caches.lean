import StackExpr.Proofs.Cache.ExportScan
import StackExpr.Session
/-!
# The traffic at the caches of a stack

Seen from the caches of a stack, a run of jobs is a crowd of readers. A reader asks one question; it
arrives, goes on step by step, and leaves with an answer, with a failure, or because it is called
off. In which order the readers go on is left open. `Caches.Traffic client id log readers c` says
that the caches `c` with the number `id` can come about in this way, with `readers` still there and
with `log` as the list of what has happened (`Event`).

**Every lock fits the readers at it** (`Caches.Traffic.guarded`), in every state that can come
about.
-/

namespace StackExpr

/-- The kind of request that a question leads to. -/
def Query.kind : Query → RequestKind
  | .inventory => .stackResources
  | .urlSuffix => .urlSuffix
  | .exportNamed _ => .exports

/-- Somebody who has asked a question to the caches with a number. -/
structure Reader where
  caches : Nat
  query : Query
  phase : Phase

/-- What happens at the caches with a number. -/
inductive Event where
  /-- A request is made. -/
  | asked (caches : Nat) (request : Request) (number : Nat)
  /-- The cloud answers a request. -/
  | answered (caches : Nat) (request : Request) (number : Nat) (response : request.Response)
  /-- A request fails. -/
  | refused (caches : Nat) (request : Request) (number : Nat) (message : String)
  /-- A reader leaves with an answer. -/
  | read (caches : Nat) (q : Query) (answer : q.Answer)

namespace Event

/-- The number of the caches where it happens. -/
def caches : Event → Nat
  | asked id _ _ => id
  | answered id _ _ _ => id
  | refused id _ _ _ => id
  | read id _ _ => id

/-- The kind of request it is about. -/
def kind : Event → RequestKind
  | asked _ r _ => r.kind
  | answered _ r _ _ => r.kind
  | refused _ r _ _ => r.kind
  | read _ q _ => q.kind

/-- A request of a kind is made at caches with a number. -/
def asks (id : Nat) (kind : RequestKind) : Event → Bool
  | asked i r _ => i == id && r.kind == kind
  | _ => false

/-- A request of a kind, made at caches with a number, is answered. -/
def answers (id : Nat) (kind : RequestKind) : Event → Bool
  | answered i r _ _ => i == id && r.kind == kind
  | _ => false

/-- A request of a kind is made, wherever. -/
def asksFor (kind : RequestKind) : Event → Bool
  | asked _ r _ => r.kind == kind
  | _ => false

/-- A reply to a request: an answer or a failure. -/
def isReply : Event → Bool
  | answered _ _ _ _ => true
  | refused _ _ _ _ => true
  | _ => false

variable {e : Event} {id : Nat} {kind : RequestKind}

theorem caches_of_asks (h : e.asks id kind = true) : e.caches = id := by
  cases e with
  | asked i r n => exact eq_of_beq (Bool.and_eq_true_iff.mp h).1
  | _ => cases h

theorem caches_of_answers (h : e.answers id kind = true) : e.caches = id := by
  cases e with
  | answered i r n a => exact eq_of_beq (Bool.and_eq_true_iff.mp h).1
  | _ => cases h

theorem asks_of_kind_ne (h : e.kind ≠ kind) : e.asks id kind = false := by
  cases e with
  | asked i r n => simp [asks, show r.kind ≠ kind from h]
  | _ => rfl

theorem answers_of_kind_ne (h : e.kind ≠ kind) : e.answers id kind = false := by
  cases e with
  | answered i r n a => simp [answers, show r.kind ≠ kind from h]
  | _ => rfl

end Event

namespace Caches

/-- The lock of what requests of a kind fetch. -/
def lock (c : Caches) : RequestKind → Lock
  | .stackResources => c.inventory.lock
  | .urlSuffix => c.urlSuffix.lock
  | .exports => c.exports.lock

/-- The request that a question leads to; one for exports asks for the page with a token. -/
def request (c : Caches) (token : Option String) : Query → Request
  | .inventory => .stackResources c.stack
  | .urlSuffix => .urlSuffix c.region
  | .exportNamed _ => .exports token

theorem request_kind (c : Caches) (token : Option String) (q : Query) :
    (c.request token q).kind = q.kind := by
  cases q <;> rfl

/-- What becomes of the request of a reader that goes on. -/
def outcome (c : Caches) (client : Client) (id : Nat) (q : Query) : Phase → List Event
  | .fetching _ n token =>
    match client.answer (c.request token q) n with
    | .ok a => [.answered id (c.request token q) n a]
    | .error message => [.refused id (c.request token q) n message]
  | _ => []

/-- What a reader does then. -/
def reaction (c : Caches) (id : Nat) (q : Query) : Progress q.Answer → List Event
  | .ready a => [.read id q a]
  | .suspended (.fetching _ n token) => [.asked id (c.request token q) n]
  | _ => []

theorem isReply_of_mem_outcome {c : Caches} {client : Client} {id : Nat} {q : Query} {p : Phase} :
    ∀ e ∈ c.outcome client id q p, e.isReply = true := by
  intro e he
  unfold outcome at he
  split at he
  · split at he <;> rw [List.mem_singleton.mp he] <;> rfl
  · cases he

theorem isReply_of_mem_reaction {c : Caches} {id : Nat} {q : Query} {progress : Progress q.Answer} :
    ∀ e ∈ c.reaction id q progress, e.isReply = false := by
  intro e he
  unfold reaction at he
  split at he
  · rw [List.mem_singleton.mp he]
    rfl
  · rw [List.mem_singleton.mp he]
    rfl
  · cases he

/-- What happens when a reader goes on. -/
def events (c : Caches) (client : Client) (id : Nat) (q : Query) (p : Phase)
    (progress : Progress q.Answer) : List Event :=
  c.outcome client id q p ++ c.reaction id q progress

/-- Everything that happens when a reader goes on is about what it asks for. -/
theorem kind_of_mem_events {c : Caches} {client : Client} {id : Nat} {q : Query} {p : Phase}
    {progress : Progress q.Answer} : ∀ e ∈ c.events client id q p progress, e.kind = q.kind := by
  intro e he
  rcases List.mem_append.mp he with he | he
  · unfold outcome at he
    split at he
    · split at he <;> rw [List.mem_singleton.mp he] <;> exact c.request_kind _ q
    · cases he
  · unfold reaction at he
    split at he
    · rw [List.mem_singleton.mp he]; rfl
    · rw [List.mem_singleton.mp he]; exact c.request_kind _ q
    · cases he

section Events

variable {c : Caches} {client : Client} {id t n : Nat} {token : Option String} {q : Query}
  {p : Phase} {progress : Progress q.Answer}

theorem events_of_not_fetching (hp : p.isFetching = false) :
    c.events client id q p progress = c.reaction id q progress := by
  cases p with
  | arriving => rfl
  | waiting t => rfl
  | fetching t n token => simp [Phase.isFetching] at hp

theorem events_of_ok {a : (c.request token q).Response}
    (h : client.answer (c.request token q) n = .ok a) :
    c.events client id q (.fetching t n token) progress
      = .answered id (c.request token q) n a :: c.reaction id q progress := by
  simp [events, outcome, h]

theorem events_of_error {message : String}
    (h : client.answer (c.request token q) n = .error message) :
    c.events client id q (.fetching t n token) progress
      = .refused id (c.request token q) n message :: c.reaction id q progress := by
  simp [events, outcome, h]

end Events

/-! ## Steps at the caches of a stack -/

/-- The steps of a reader at the caches of a stack, each a step at one of them. -/
inductive Step (c : Caches) (client : Client) (made : Requests) (p : Phase) :
    (q : Query) → Progress q.Answer → Caches → Requests → Prop where
  | inventory {progress : Progress (List StackResource)} {cell : Cell (List StackResource)}
    {made' : Requests} (h : c.inventory.Step .stackResources
      (client.answer (.stackResources c.stack)) made p progress cell made') :
    Step c client made p .inventory progress { c with inventory := cell } made'
  | urlSuffix {progress : Progress String} {cell : Cell String} {made' : Requests}
    (h : c.urlSuffix.Step .urlSuffix (client.answer (.urlSuffix c.region)) made p progress cell
      made') : Step c client made p .urlSuffix progress { c with urlSuffix := cell } made'
  | exportNamed {name : String} {progress : Progress (Option Export)} {scan : ExportScan}
    {made' : Requests} (h : c.exports.Step client name made p progress scan made') :
    Step c client made p (.exportNamed name) progress { c with exports := scan } made'

theorem advance_step {c c' : Caches} {client : Client} {p : Phase} {made made' : Requests}
    {q : Query} {progress : Progress q.Answer}
    (h : c.advance client p made q = (progress, c', made')) :
    Step c client made p q progress c' made' := by
  cases q with
  | inventory =>
    obtain ⟨rfl, rfl, rfl⟩ := h
    exact .inventory (Cell.advance_step rfl)
  | urlSuffix =>
    obtain ⟨rfl, rfl, rfl⟩ := h
    exact .urlSuffix (Cell.advance_step rfl)
  | exportNamed name =>
    obtain ⟨rfl, rfl, rfl⟩ := h
    exact .exportNamed (ExportScan.advance_step rfl)

namespace Step

variable {c c' : Caches} {client : Client} {made made' : Requests} {p : Phase} {q : Query}
  {progress : Progress q.Answer}

/-- A step goes through the lock of what the question is about. -/
theorem passage (h : Step c client made p q progress c' made') :
    Passage (c.lock q.kind) p progress.phase? (c'.lock q.kind) := by
  cases h with
  | inventory h => exact h.passage
  | urlSuffix h => exact h.passage
  | exportNamed h => exact h.passage

/-- The other locks stay as they are. -/
theorem lock_of_ne (h : Step c client made p q progress c' made') {kind : RequestKind}
    (hk : q.kind ≠ kind) : c'.lock kind = c.lock kind := by
  cases h <;> cases kind <;> first | rfl | exact absurd rfl hk

theorem stack_eq (h : Step c client made p q progress c' made') :
    c'.stack = c.stack ∧ c'.region = c.region := by
  cases h <;> exact ⟨rfl, rfl⟩

/-- A request is counted when a reader begins to wait for its answer. -/
theorem requests (h : Step c client made p q progress c' made') :
    made' = if progress.phase?.any Phase.isFetching then (made.start q.kind).2 else made := by
  cases h with
  | inventory h => cases h <;> rfl
  | urlSuffix h => cases h <;> rfl
  | exportNamed h =>
    cases h with
    | looks t hp hs hl => cases hs <;> rfl
    | waits t hp hl => rfl
    | turned page h hs hl => cases hs <;> rfl
    | refused message h hl => rfl

/-- Every request that is counted is in the log. -/
theorem count_requests (h : Step c client made p q progress c' made') (id : Nat)
    (kind : RequestKind) : made'.count kind
      = made.count kind + (c.events client id q p progress).countP (Event.asksFor kind) := by
  have houtcome : (c.outcome client id q p).countP (Event.asksFor kind) = 0 := by
    unfold outcome
    split
    · split <;> simp [Event.asksFor]
    · rfl
  rw [events, List.countP_append, houtcome, Nat.zero_add, h.requests]
  cases progress with
  | ready a => simp [reaction, Progress.phase?, Event.asksFor]
  | failed message => simp [reaction, Progress.phase?]
  | suspended p =>
    cases p with
    | arriving => simp [reaction, Progress.phase?, Phase.isFetching]
    | waiting t => simp [reaction, Progress.phase?, Phase.isFetching]
    | fetching t n token =>
      simp only [Progress.phase?, Option.any_some, Phase.isFetching, if_true, Requests.start,
        Requests.count_record, reaction, List.countP_singleton, Event.asksFor, request_kind]
      simp

/-- Only a reader whose request fails fails, and with the message of that request. -/
theorem refused_of_failed {message : String}
    (h : Step c client made p q (.failed message) c' made') :
    ∃ t n token, p = .fetching t n token ∧
      client.answer (c.request token q) n = .error message := by
  cases h with
  | inventory h => cases h with | refused _ h hl => exact ⟨_, _, _, rfl, h⟩
  | urlSuffix h => cases h with | refused _ h hl => exact ⟨_, _, _, rfl, h⟩
  | exportNamed h =>
    cases h with
    | looks t hp hs hl => cases hs
    | turned page h hs hl => cases hs
    | refused _ h hl => exact ⟨_, _, _, rfl, h⟩

end Step

theorem stack_release (c : Caches) (p : Phase) (q : Query) :
    (c.release p q).stack = c.stack ∧ (c.release p q).region = c.region := by
  cases q <;> exact ⟨rfl, rfl⟩

theorem lock_release (c : Caches) (p : Phase) (q : Query) (kind : RequestKind) :
    (c.release p q).lock kind = if q.kind = kind then p.release (c.lock kind) else c.lock kind := by
  cases q <;> cases kind <;> rfl

end Caches

/-! ## The readers at a lock -/

namespace Reader

/-- The reader after a step, if it is still there. -/
def after (r : Reader) (progress : Progress r.query.Answer) : Multiset Reader :=
  progress.phase?.elim 0 fun p => {{ r with phase := p }}

/-- The phase of the reader if it is at the lock for a kind of request. -/
def phaseAt? (kind : RequestKind) (r : Reader) : Option Phase :=
  if r.query.kind = kind then some r.phase else none

end Reader

/-- The phases of the readers at the lock for a kind of request. -/
def phasesAt (readers : Multiset Reader) (kind : RequestKind) : Multiset Phase :=
  readers.filterMap (Reader.phaseAt? kind)

theorem phasesAt_cons_self (readers : Multiset Reader) (r : Reader) :
    phasesAt (r ::ₘ readers) r.query.kind = r.phase ::ₘ phasesAt readers r.query.kind :=
  Multiset.filterMap_cons_some _ _ _ (if_pos rfl)

theorem phasesAt_cons_of_ne {readers : Multiset Reader} {r : Reader} {kind : RequestKind}
    (h : r.query.kind ≠ kind) : phasesAt (r ::ₘ readers) kind = phasesAt readers kind :=
  Multiset.filterMap_cons_none _ _ (if_neg h)

theorem phasesAt_after_of_ne {readers : Multiset Reader} {r : Reader} {kind : RequestKind}
    (progress : Progress r.query.Answer) (h : r.query.kind ≠ kind) :
    phasesAt (r.after progress + readers) kind = phasesAt readers kind := by
  cases hp : progress.phase? with
  | none => simp [Reader.after, hp]
  | some p =>
    simp only [Reader.after, hp, Option.elim_some, Multiset.singleton_add]
    exact phasesAt_cons_of_ne h

theorem phasesAt_after (readers : Multiset Reader) (r : Reader)
    (progress : Progress r.query.Answer) :
    phasesAt (r.after progress + readers) r.query.kind
      = progress.phase?.elim 0 singleton + phasesAt readers r.query.kind := by
  cases hp : progress.phase? with
  | none => simp [Reader.after, hp]
  | some p =>
    simp only [Reader.after, hp, Option.elim_some, Multiset.singleton_add]
    exact phasesAt_cons_self readers { r with phase := p }

theorem phase_of_mem_cons {readers : Multiset Reader} {r : Reader} {kind : RequestKind} {p : Phase}
    (h : p ∈ phasesAt (r ::ₘ readers) kind) : p = r.phase ∨ p ∈ phasesAt readers kind := by
  by_cases hk : r.query.kind = kind
  · subst hk
    rw [phasesAt_cons_self] at h
    exact Multiset.mem_cons.mp h
  · rw [phasesAt_cons_of_ne hk] at h
    exact Or.inr h

theorem phasesAt_le_cons (readers : Multiset Reader) (r : Reader) (kind : RequestKind) :
    phasesAt readers kind ≤ phasesAt (r ::ₘ readers) kind :=
  Multiset.filterMap_le_filterMap _ (Multiset.le_cons_self _ _)

theorem mem_phasesAt {readers : Multiset Reader} {r : Reader} (h : r ∈ readers) :
    r.phase ∈ phasesAt readers r.query.kind :=
  (Multiset.mem_filterMap _ _).mpr ⟨r, h, if_pos rfl⟩

theorem exists_of_mem_phasesAt {readers : Multiset Reader} {kind : RequestKind} {p : Phase}
    (h : p ∈ phasesAt readers kind) : ∃ r ∈ readers, r.query.kind = kind ∧ r.phase = p := by
  obtain ⟨r, hr, hrp⟩ := (Multiset.mem_filterMap _ _).mp h
  unfold Reader.phaseAt? at hrp
  split at hrp
  · next hk => exact ⟨r, hr, hk, Option.some.inj hrp⟩
  · cases hrp

/-! ## Traffic -/

namespace Caches

/-- What may have happened at the caches of a stack, who is still there, and the caches then. -/
inductive Traffic (client : Client) (id : Nat) :
    List Event → Multiset Reader → Caches → Prop where
  /-- The stack is opened. -/
  | opened (stack region : String) : Traffic client id [] 0 { stack, region }
  /-- A reader arrives. -/
  | arrived {log : List Event} {readers : Multiset Reader} {c : Caches} (q : Query)
    (h : Traffic client id log readers c) :
    Traffic client id log (⟨id, q, .arriving⟩ ::ₘ readers) c
  /-- A reader goes on. -/
  | advanced {log : List Event} {readers : Multiset Reader} {c c' : Caches} {r : Reader}
    {progress : Progress r.query.Answer} {made made' : Requests}
    (hs : c.Step client made r.phase r.query progress c' made')
    (h : Traffic client id log (r ::ₘ readers) c) :
    Traffic client id (log ++ c.events client id r.query r.phase progress)
      (r.after progress + readers) c'
  /-- A reader is called off. -/
  | left {log : List Event} {readers : Multiset Reader} {c : Caches} {r : Reader}
    (h : Traffic client id log (r ::ₘ readers) c) :
    Traffic client id log readers (c.release r.phase r.query)

/-- Readers that have only arrived are found at caches that were just opened. -/
theorem Traffic.of_arriving {client : Client} {id : Nat} (stack region : String)
    {readers : Multiset Reader} (h : ∀ r ∈ readers, r.caches = id ∧ r.phase = .arriving) :
    Traffic client id [] readers { stack, region } := by
  induction readers using Multiset.induction with
  | empty => exact .opened stack region
  | cons r readers ih =>
    obtain ⟨i, q, p⟩ := r
    obtain ⟨rfl, rfl⟩ := h _ (Multiset.mem_cons_self _ _)
    exact .arrived q (ih fun r hr => h r (Multiset.mem_cons_of_mem hr))

/-- **Every lock fits the readers at it.** -/
theorem Traffic.guarded {client : Client} {id : Nat} {log : List Event} {readers : Multiset Reader}
    {c : Caches} (h : c.Traffic client id log readers) (kind : RequestKind) :
    Guarded (phasesAt readers kind) (c.lock kind) := by
  induction h with
  | opened stack region => cases kind <;> exact Guarded.empty
  | arrived q h ih =>
    by_cases hk : q.kind = kind
    · subst hk
      rw [phasesAt_cons_self _ (⟨id, q, .arriving⟩ : Reader)]
      exact ih.arrive
    · rw [phasesAt_cons_of_ne hk]
      exact ih
  | @advanced log readers c c' r progress made made' hs h ih =>
    by_cases hk : r.query.kind = kind
    · subst hk
      rw [phasesAt_cons_self] at ih
      rw [phasesAt_after]
      exact ih.passage hs.passage
    · rw [phasesAt_cons_of_ne hk] at ih
      rw [phasesAt_after_of_ne progress hk, hs.lock_of_ne hk]
      exact ih
  | @left log readers c r h ih =>
    rw [lock_release]
    by_cases hk : r.query.kind = kind
    · subst hk
      rw [phasesAt_cons_self] at ih
      rw [if_pos rfl]
      exact ih.release
    · rw [phasesAt_cons_of_ne hk] at ih
      rw [if_neg hk]
      exact ih

end Caches

end StackExpr
