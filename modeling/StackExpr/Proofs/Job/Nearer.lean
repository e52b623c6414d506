import Mathlib.Order.GameAdd
import StackExpr.Proofs.Job.Step
/-!
# Getting nearer to the end

A reader that goes on and is not answered either is where it was, because somebody else holds the
lock, or it has got nearer to its answer (`Session.advance_suspended`): it waits after it has
arrived, it fetches after it has waited, and it fetches a page only after those before it.

A job gets nearer to its end when one of its readers does, when a part of it does, and when it goes
on with what comes next (`Job.Nearer`). **No job can get nearer to its end for ever**
(`Job.wellFounded_nearer`), and **a move of a job brings it nearer or changes nothing**
(`Job.Move.nearer`).
-/

namespace StackExpr

/-! ## Readers -/

namespace Cloud

/-- The pages from the one with this token on. Behind the last page that has an index comes the
first one again. -/
def pagesFrom (c : Cloud) : (token : Option String) → Nat
  | none => c.exportPages.length + 2
  | some token =>
    match Decimal.word64? token.toList with
    | some index =>
      if index < c.exportPages.length then c.exportPages.length - index
      else c.exportPages.length + 1
    | none => 0

theorem pagesFrom_toText {c : Cloud} {index : Nat} (h : index < c.exportPages.length) :
    c.pagesFrom (some (Decimal.toText index)) = c.exportPages.length - index := by
  have hread := Decimal.word64?_digits (Nat.lt_trans h c.pages_lt)
  simp only [pagesFrom, Decimal.toText, String.toList_ofList, hread, if_pos h]

/-- A page is followed by fewer pages than there are from it on. -/
theorem pagesFrom_lt {c : Cloud} {token : Option String} {page : ExportsPage} {next : String}
    (h : c.answer (.exports token) = .ok page) (hn : page.next = some next) :
    c.pagesFrom (some next) < c.pagesFrom token := by
  have hnext : ∀ index, (c.page index).next = some next →
      (index + 1) % UInt64.size < c.exportPages.length ∧
        c.pagesFrom (some next) = c.exportPages.length - (index + 1) % UInt64.size := by
    intro index hi
    simp only [Cloud.page] at hi
    split at hi
    · next hlt =>
      obtain rfl := Option.some.inj hi
      exact ⟨hlt, pagesFrom_toText hlt⟩
    · cases hi
  cases token with
  | none =>
    obtain rfl := Except.ok.inj h
    rw [(hnext 0 hn).2, pagesFrom]
    omega
  | some token =>
    simp only [Cloud.answer] at h
    split at h
    · next index hindex =>
      obtain rfl := Except.ok.inj h
      obtain ⟨hlt, hpages⟩ := hnext index hn
      rw [hpages]
      simp only [pagesFrom, hindex]
      split
      · next hi =>
        -- Only behind the last index the next page is not the one with the next index.
        have hsucc : (index + 1) % UInt64.size = index + 1 :=
          Nat.mod_eq_of_lt (Nat.lt_of_le_of_lt hi c.pages_lt)
        omega
      · omega
    · cases h

end Cloud

/-- The steps that a reader may still have to make, if every step brings it nearer to its answer. -/
def Phase.distance (cloud : Cloud) : Phase → Nat
  | arriving => cloud.exportPages.length + 4
  | waiting _ => cloud.exportPages.length + 3
  | fetching _ _ token => cloud.pagesFrom token

theorem Cloud.pagesFrom_le (c : Cloud) (token : Option String) :
    c.pagesFrom token ≤ c.exportPages.length + 2 := by
  unfold pagesFrom
  split
  · omega
  · split
    · split <;> omega
    · omega

/-- Whoever begins to fetch has got nearer to its answer. -/
theorem Phase.distance_fetching_lt {cloud : Cloud} {p : Phase} (hp : p.isFetching = false)
    (t n : Nat) (token : Option String) :
    (Phase.fetching t n token).distance cloud < p.distance cloud := by
  have hle := cloud.pagesFrom_le token
  cases p with
  | arriving => simp only [distance]; omega
  | waiting u => simp only [distance]; omega
  | fetching u m token' => simp [isFetching] at hp

/-- Whoever waits has the ticket it had, or has got nearer to its answer by taking one. -/
theorem Passage.waits_nearer (cloud : Cloud) {l l' : Lock} {p : Phase} {t : Nat}
    (h : Passage l p (some (.waiting t)) l') :
    (p = .waiting t ∧ l' = l) ∨ (Phase.waiting t).distance cloud < p.distance cloud := by
  cases h with
  | wait _ hf =>
    cases p with
    | arriving => exact Or.inr (Nat.lt_succ_self _)
    | waiting u => exact Or.inl ⟨rfl, rfl⟩
    | fetching u n token => simp [Phase.isFetching] at hf

/-- Nobody waits with the lock in hand. -/
theorem Cell.not_heldBy_of_waits {α : Type} {c : Cell α} {kind : RequestKind}
    (answer : Nat → Except String α) {made : Requests} {t u : Nat}
    (h : (c.advance kind answer (.waiting t) made).1 = .suspended (.waiting u)) :
    c.lock.heldBy t = false := by
  simp only [advance] at h
  split at h
  · cases h
  · unfold fetchOrWait at h
    split at h
    · cases h
    · next hheld => simpa using hheld

theorem ExportScan.not_heldBy_of_waits {s : ExportScan} (client : Client) {name : String}
    {made : Requests} {t u : Nat}
    (h : (s.advance client name (.waiting t) made).1 = .suspended (.waiting u)) :
    s.lock.heldBy t = false := by
  simp only [advance, lookOrWait] at h
  split at h
  · unfold lookOrFetch at h
    split at h
    · cases h
    · split at h <;> cases h
  · next hheld => simpa using hheld

/-- Whoever looks for an export and stays asks for the page at the cursor. -/
theorem ExportScan.Look.asks_of_suspended {s : ExportScan} {name : String} {t : Nat}
    {made made' : Requests} {p : Phase} (h : Look s name t made (.suspended p) made') :
    ∃ token, p = .fetching t (made.start .exports).1 token ∧ s.cursor = .page token := by
  cases h with
  | asks token h hc => exact ⟨token, rfl, hc⟩

namespace Caches

variable {c c' : Caches} {client : Client} {made made' : Requests} {p p' : Phase} {q : Query}

theorem not_heldBy_of_waits {t u : Nat}
    (h : (c.advance client (.waiting t) made q).1 = .suspended (.waiting u)) :
    (c.lock q.kind).heldBy t = false := by
  cases q with
  | inventory => exact Cell.not_heldBy_of_waits (client.answer (.stackResources c.stack)) h
  | urlSuffix => exact Cell.not_heldBy_of_waits (client.answer (.urlSuffix c.region)) h
  | exportNamed name => exact ExportScan.not_heldBy_of_waits client h

/-- **Whoever goes on and stays waits for the same lock as before, or has got nearer to its
answer.** -/
theorem Step.suspended (h : c.Step client made p q (.suspended p') c' made') :
    (∃ t, p = .waiting t ∧ p' = p ∧ c' = c ∧ made' = made) ∨
      p'.distance client.cloud < p.distance client.cloud := by
  cases h with
  | inventory h =>
    cases h with
    | waits t hp hv hl =>
      refine (hl.waits_nearer client.cloud).imp_left ?_
      rintro ⟨rfl, rfl⟩
      exact ⟨t, rfl, rfl, rfl, rfl⟩
    | asks t hp hv hl => exact Or.inr (Phase.distance_fetching_lt hp _ _ _)
  | urlSuffix h =>
    cases h with
    | waits t hp hv hl =>
      refine (hl.waits_nearer client.cloud).imp_left ?_
      rintro ⟨rfl, rfl⟩
      exact ⟨t, rfl, rfl, rfl, rfl⟩
    | asks t hp hv hl => exact Or.inr (Phase.distance_fetching_lt hp _ _ _)
  | exportNamed h =>
    cases h with
    | looks t hp hs hl =>
      obtain ⟨token, rfl, -⟩ := hs.asks_of_suspended
      exact Or.inr (Phase.distance_fetching_lt hp _ _ _)
    | waits t hp hl =>
      refine (hl.waits_nearer client.cloud).imp_left ?_
      rintro ⟨rfl, rfl⟩
      exact ⟨t, rfl, rfl, rfl, rfl⟩
    | turned page ha hs hl =>
      obtain ⟨token', rfl, hc⟩ := hs.asks_of_suspended
      refine Or.inr ?_
      simp only [ExportScan.turn, Cursor.behind] at hc
      split at hc
      · next next hn =>
        obtain rfl := Cursor.page.inj hc
        unfold Client.answer at ha
        split at ha
        · cases ha
        · exact Cloud.pagesFrom_lt ha hn
      · cases hc

end Caches

/-- **Whoever goes on and is not answered is where it was, or has got nearer to its answer.** It is
where it was if its caches were never opened, and if somebody else holds the lock. -/
theorem Session.advance_suspended {s s' : Session} {client : Client} {id : Nat} {p p' : Phase}
    {q : Query} (h : s.advance client id p q = (.suspended p', s')) :
    (p' = p ∧ s' = s ∧ ∀ c, s.caches[id]? = some c →
        ∃ t, p = .waiting t ∧ (c.lock q.kind).heldBy t = false) ∨
      p'.distance client.cloud < p.distance client.cloud := by
  rcases advance_cases h with ⟨c, c', made, hc, ha, rfl, -⟩ | ⟨hc, hp, rfl, -⟩
  · refine (Caches.advance_step ha).suspended.imp_left ?_
    rintro ⟨t, rfl, rfl, rfl, rfl⟩
    have hset : s.caches.set id c' = s.caches := by
      obtain ⟨hid, rfl⟩ := List.getElem?_eq_some_iff.mp hc
      exact List.set_getElem_self hid
    refine ⟨rfl, by rw [hset], fun c₀ hc₀ => ?_⟩
    obtain rfl := Option.some.inj (hc.symm.trans hc₀)
    exact ⟨t, rfl, Caches.not_heldBy_of_waits (congrArg Prod.fst ha)⟩
  · refine Or.inl ⟨by cases hp; rfl, rfl, fun c hc' => ?_⟩
    rw [hc] at hc'
    cases hc'

/-- Nothing happens while a reader waits. -/
theorem Session.events_of_waits {s : Session} {client : Client} {id : Nat} {p : Phase} {q : Query}
    (h : ∀ c, s.caches[id]? = some c → ∃ t, p = .waiting t) :
    s.events client id q p (.suspended p) = [] := by
  unfold events
  split
  · next c hc =>
    obtain ⟨t, rfl⟩ := h c hc
    rfl
  · rfl

/-! ## Lists in which one element changes -/

/-- One element of a list is replaced by one that stands in a relation to it. -/
def OneOf {β : Type*} (r : β → β → Prop) (l' l : List β) : Prop :=
  ∃ before a' a after, l = before ++ a :: after ∧ l' = before ++ a' :: after ∧ r a' a

namespace OneOf

variable {β : Type*} {r : β → β → Prop}

theorem head {a' a : β} (h : r a' a) (l : List β) : OneOf r (a' :: l) (a :: l) :=
  ⟨[], a', a, l, rfl, rfl, h⟩

theorem tail (a : β) {l' l : List β} (h : OneOf r l' l) : OneOf r (a :: l') (a :: l) := by
  obtain ⟨before, b', b, after, rfl, rfl, hb⟩ := h
  exact ⟨a :: before, b', b, after, rfl, rfl, hb⟩

theorem acc_cons {x : β × List β} (h : Acc (Prod.GameAdd r (OneOf r)) x) :
    Acc (OneOf r) (x.1 :: x.2) := by
  induction h with
  | intro x _ ih =>
    obtain ⟨a, l⟩ := x
    refine ⟨_, fun l' hl' => ?_⟩
    obtain ⟨before, b', b, after, hl, rfl, hb⟩ := hl'
    cases before with
    | nil =>
      obtain ⟨rfl, rfl⟩ := List.cons.inj hl
      exact ih (b', l) (.fst hb)
    | cons c before =>
      obtain ⟨rfl, rfl⟩ := List.cons.inj hl
      exact ih (a, _) (.snd ⟨before, b', b, after, rfl, rfl, hb⟩)

/-- Elements are replaced for ever only if one of them is. -/
theorem acc {l : List β} (h : ∀ a ∈ l, Acc r a) : Acc (OneOf r) l := by
  induction l with
  | nil =>
    refine ⟨_, fun l' hl' => ?_⟩
    obtain ⟨before, a', a, after, hl, -⟩ := hl'
    exact absurd hl (by simp)
  | cons a l ih =>
    have hl := ih fun b hb => h b (List.mem_cons_of_mem a hb)
    exact acc_cons ((h a List.mem_cons_self).prod_gameAdd hl)

end OneOf

/-! ## Jobs -/

namespace Job

variable {cloud : Cloud}

/-- A job has got nearer to its end: with one of its readers, with a part, by going on with what
comes next, or by failing. -/
inductive Nearer (cloud : Cloud) : {α : Type} → Job α → Job α → Prop where
  | failed {α : Type} {job : Job α} (e : Failure) (h : job.result? = none) :
    Nearer cloud (done (.error e)) job
  | opened {α : Type} {stack region : String} {next : Nat → Job α} (id : Nat) :
    Nearer cloud (next id) (openStack stack region next)
  | answered {α : Type} {id : Nat} {q : Query} {p : Phase} {next : q.Answer → Job α}
    (a : q.Answer) : Nearer cloud (next a) (ask id q p next)
  | suspended {α : Type} {id : Nat} {q : Query} {p p' : Phase} {next : q.Answer → Job α}
    (h : p'.distance cloud < p.distance cloud) :
    Nearer cloud (ask id q p' next) (ask id q p next)
  | part {α : Type} {job job' : Job Json} {next : List Json → Job α}
    (before after : List (Job Json)) (h : Nearer cloud job' job) :
    Nearer cloud (gather (before ++ job' :: after) next) (gather (before ++ job :: after) next)
  | gathered {α : Type} {parts : List (Job Json)} {next : List Json → Job α} (vs : List Json) :
    Nearer cloud (next vs) (gather parts next)
  | attempting {α : Type} {job job' : Job Json} {next : Except EvalError Json → Job α}
    (h : Nearer cloud job' job) : Nearer cloud (attempt job' next) (attempt job next)
  | attempted {α : Type} {part : Job Json} {next : Except EvalError Json → Job α}
    (r : Except EvalError Json) : Nearer cloud (next r) (attempt part next)

section Acc

variable {α : Type}

theorem acc_done (r : Except Failure α) : Acc (Nearer cloud) (done r) := by
  refine ⟨_, fun job h => ?_⟩
  cases h with
  | failed e h => cases h

/-- A reader gets nearer to its answer only so often. -/
theorem acc_ask {id : Nat} {q : Query} {next : q.Answer → Job α}
    (hnext : ∀ a, Acc (Nearer cloud) (next a)) (p : Phase) :
    Acc (Nearer cloud) (ask id q p next) := by
  induction hd : p.distance cloud using Nat.strongRecOn generalizing p with
  | ind d ih =>
    subst hd
    refine ⟨_, fun job h => ?_⟩
    cases h with
    | failed e h => exact acc_done _
    | answered a => exact hnext a
    | suspended h => exact ih _ h _ rfl

theorem acc_gather {parts : List (Job Json)} {next : List Json → Job α}
    (hparts : Acc (OneOf (Nearer cloud)) parts) (hnext : ∀ vs, Acc (Nearer cloud) (next vs)) :
    Acc (Nearer cloud) (gather parts next) := by
  induction hparts with
  | intro parts _ ih =>
    refine ⟨_, fun job h => ?_⟩
    cases h with
    | failed e h => exact acc_done _
    | part before after h => exact ih _ ⟨before, _, _, after, rfl, rfl, h⟩
    | gathered vs => exact hnext vs

theorem acc_attempt {part : Job Json} {next : Except EvalError Json → Job α}
    (hpart : Acc (Nearer cloud) part) (hnext : ∀ r, Acc (Nearer cloud) (next r)) :
    Acc (Nearer cloud) (attempt part next) := by
  induction hpart with
  | intro part _ ih =>
    refine ⟨_, fun job h => ?_⟩
    cases h with
    | failed e h => exact acc_done _
    | attempting h => exact ih _ h
    | attempted r => exact hnext r

end Acc

mutual

theorem acc_nearer : {α : Type} → (job : Job α) → Acc (Nearer cloud) job
  | _, done r => acc_done r
  | _, openStack _ _ next => by
    refine ⟨_, fun job h => ?_⟩
    cases h with
    | failed e h => exact acc_done _
    | opened id => exact acc_nearer (next id)
  | _, ask _ _ p next => acc_ask (fun a => acc_nearer (next a)) p
  | _, gather parts next =>
    acc_gather (OneOf.acc (acc_nearer_of_mem parts)) fun vs => acc_nearer (next vs)
  | _, attempt part next => acc_attempt (acc_nearer part) fun r => acc_nearer (next r)

theorem acc_nearer_of_mem : (jobs : List (Job Json)) → ∀ job ∈ jobs, Acc (Nearer cloud) job
  | [] => fun _ h => absurd h List.not_mem_nil
  | job :: jobs => fun job' h => by
    rcases List.mem_cons.mp h with h | h
    · rw [h]
      exact acc_nearer job
    · exact acc_nearer_of_mem jobs job' h

end

/-- **No job gets nearer to its end for ever.** -/
theorem wellFounded_nearer (cloud : Cloud) (α : Type) :
    WellFounded (Nearer cloud : Job α → Job α → Prop) := ⟨acc_nearer⟩

/-! ## Moves -/

section Moves

variable {α : Type} {client : Client} {job job' : Job α} {s s' : Session} {events : List Event}

/-- **A move brings the job nearer to its end, or changes nothing**, and then nothing happens. -/
theorem Move.nearer (hm : Move client job s events job' s') :
    Nearer client.cloud job' job ∨ job' = job ∧ s' = s ∧ events = [] := by
  induction hm with
  | opened stack region next => exact Or.inl (.opened _)
  | answered ha => exact Or.inl (.answered _)
  | refused ha => exact Or.inl (.failed _ rfl)
  | suspended ha =>
    rcases Session.advance_suspended ha with ⟨rfl, rfl, hwaits⟩ | hlt
    · exact Or.inr ⟨rfl, rfl, Session.events_of_waits fun c hc => (hwaits c hc).imp fun _ h => h.1⟩
    · exact Or.inl (.suspended hlt)
  | part before after hm ih =>
    rcases ih with ih | ⟨rfl, rfl, he⟩
    · exact Or.inl (.part before after ih)
    · exact Or.inr ⟨rfl, rfl, he⟩
  | gathered hvs => exact Or.inl (.gathered _)
  | calledOff order hperm hc => exact Or.inl (.failed _ rfl)
  | attempting hm ih =>
    rcases ih with ih | ⟨rfl, rfl, he⟩
    · exact Or.inl (.attempting ih)
    · exact Or.inr ⟨rfl, rfl, he⟩
  | attempted r => exact Or.inl (.attempted _)
  | abandoned hne => exact Or.inl (.failed _ rfl)

/-- Several moves bring the job nearer to its end, or change nothing. -/
theorem Moves.nearer (hm : Moves client job s events job' s') :
    Relation.TransGen (Nearer client.cloud) job' job ∨ job' = job ∧ s' = s := by
  induction hm with
  | none job s => exact Or.inr ⟨rfl, rfl⟩
  | cons hm _ ih =>
    rcases hm.nearer with hn | ⟨rfl, rfl, -⟩
    · rcases ih with ih | ⟨rfl, -⟩
      · exact Or.inl (ih.tail hn)
      · exact Or.inl (.single hn)
    · exact ih

/-- A step brings the job nearer to its end, or changes nothing. -/
theorem step_nearer (client : Client) (job : Job α) (s : Session) :
    Relation.TransGen (Nearer client.cloud) (step client job s).1 job ∨
      (step client job s).1 = job ∧ (step client job s).2 = s := by
  obtain ⟨events, hm⟩ := step_moves client job s
  exact hm.nearer

end Moves

end Job

end StackExpr
