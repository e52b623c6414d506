import Mathlib.Data.Multiset.Range
import Mathlib.Order.Bounds.Basic
import StackExpr.Proofs.Cache.Cell
/-!
# Readers that share a cell

Readers of a cell stand in one queue, and only one of them at a time has a request under way. If it
fails, this reader pays for it and is gone, and the next one makes the next request; if it is
answered, all others are told the value and no request is made any more. `Shared` says so of one
moment: the requests that failed are the first ones that were made, each has cost one reader, and if
the value is known the request behind them was answered.

* `Shared.step`: **a step of a reader keeps to it**
* `Shared.of_ended`: **when no reader is on its way any more, the requests have cost one reader each
  up to the first one that was answered**
-/

namespace StackExpr

/-- The number of the request that a reader waits for. -/
def Phase.number : Phase → Nat
  | fetching _ n _ => n
  | _ => 0

/-- Where a reader stands: on its way, told the value, or refused with the message of its
request. -/
inductive Stand where
  | asking (p : Phase)
  | told
  | refused (message : String)
  deriving DecidableEq

namespace Stand

variable {α : Type}

/-- The phase of a reader that is on its way. -/
def phase? : Stand → Option Phase
  | asking p => some p
  | _ => none

/-- The message that a reader was refused with. -/
def message? : Stand → Option String
  | refused message => some message
  | _ => none

/-- Where a reader stands after a step. -/
def after : Progress α → Stand
  | .ready _ => told
  | .failed message => refused message
  | .suspended p => asking p

/-- The phases of the readers that are on their way. -/
def phases (stands : Multiset Stand) : Multiset Phase := stands.filterMap phase?

/-- The messages that readers were refused with. -/
def messages (stands : Multiset Stand) : Multiset String := stands.filterMap message?

@[simp] theorem phases_asking (p : Phase) (stands : Multiset Stand) :
    phases (asking p ::ₘ stands) = p ::ₘ phases stands := Multiset.filterMap_cons_some _ _ _ rfl

@[simp] theorem phases_told (stands : Multiset Stand) :
    phases (told ::ₘ stands) = phases stands := Multiset.filterMap_cons_none _ _ rfl

@[simp] theorem phases_refused (message : String) (stands : Multiset Stand) :
    phases (refused message ::ₘ stands) = phases stands := Multiset.filterMap_cons_none _ _ rfl

@[simp] theorem messages_asking (p : Phase) (stands : Multiset Stand) :
    messages (asking p ::ₘ stands) = messages stands := Multiset.filterMap_cons_none _ _ rfl

@[simp] theorem messages_told (stands : Multiset Stand) :
    messages (told ::ₘ stands) = messages stands := Multiset.filterMap_cons_none _ _ rfl

@[simp] theorem messages_refused (message : String) (stands : Multiset Stand) :
    messages (refused message ::ₘ stands) = message ::ₘ messages stands :=
  Multiset.filterMap_cons_some _ _ _ rfl

theorem phases_after (progress : Progress α) (stands : Multiset Stand) :
    phases (after progress ::ₘ stands) = progress.phase?.elim 0 singleton + phases stands := by
  cases progress <;> simp [after, Progress.phase?]

/-- A reader is on its way, was told the value, or was refused. -/
theorem card_eq (stands : Multiset Stand) : stands.card
    = (phases stands).card + (messages stands).card + stands.count told := by
  induction stands using Multiset.induction with
  | empty => rfl
  | cons stand stands ih => cases stand <;> simp [ih] <;> omega

/-- The number of requests that readers have under way. -/
def underWay (phases : Multiset Phase) : Nat := phases.countP fun p => p.isFetching = true

theorem underWay_cons (p : Phase) (phases : Multiset Phase) :
    underWay (p ::ₘ phases) = underWay phases + if p.isFetching = true then 1 else 0 :=
  Multiset.countP_cons _ _ _

theorem underWay_of_idle {phases : Multiset Phase} (h : ∀ p ∈ phases, p.isFetching = false) :
    underWay phases = 0 := Multiset.countP_eq_zero.mpr fun p hp => by simp [h p hp]

end Stand

open Stand

/-- Readers share a cell: of the requests behind the first `k`, the first `r` have failed, and each
has cost one reader. -/
structure Shared {α : Type} (fails : Nat → Bool) (message : Nat → String) (a : α)
    (kind : RequestKind) (k r : Nat) (stands : Multiset Stand) (value : Option α) (l : Lock)
    (made : Requests) : Prop where
  guarded : Guarded (phases stands) l
  refused : messages stands = (Multiset.range r).map fun i => message (k + i + 1)
  failed : ∀ i < r, fails (k + i + 1) = true
  /-- As long as the value is not known, one more request at most has been made. -/
  unknown : value = none → .told ∉ stands ∧
    (∀ p ∈ phases stands, p.isFetching = true → p.number = k + r + 1) ∧
    made.count kind = k + r + underWay (phases stands)
  /-- The value was the answer to the next request, and nobody has made another. -/
  known : ∀ v, value = some v → v = a ∧ .told ∈ stands ∧
    (∀ p ∈ phases stands, p.isFetching = false) ∧ made.count kind = k + r + 1 ∧
    fails (k + r + 1) = false

namespace Shared

variable {α : Type} {fails : Nat → Bool} {message : Nat → String} {answer : Nat → Except String α}
  {a : α} {kind : RequestKind} {k r : Nat} {stands : Multiset Stand} {c c' : Cell α}
  {made made' : Requests} {p : Phase} {progress : Progress α}

/-- Readers that have only arrived at a cell whose value is not known. -/
theorem fresh (n : Nat) {l : Lock} (hl : l.queue = []) : Shared fails message a kind
    (made.count kind) 0 (.replicate n (.asking .arriving)) none l made := by
  have hphases : phases (.replicate n (.asking .arriving)) = .replicate n .arriving := by
    induction n with
    | zero => rfl
    | succ n ih => rw [Multiset.replicate_succ, phases_asking, ih, Multiset.replicate_succ]
  have harriving : ∀ p ∈ phases (.replicate n (.asking .arriving)), p = .arriving := by
    rw [hphases]
    exact fun p hp => Multiset.eq_of_mem_replicate hp
  refine ⟨⟨?_, fun p hp hf => ?_⟩, ?_, by simp, fun _ => ⟨?_, fun p hp hf => ?_, ?_⟩, by simp⟩
  · rw [hphases, hl]
    refine Multiset.eq_zero_of_forall_notMem fun t ht => ?_
    obtain ⟨p, hp, hpt⟩ := (Multiset.mem_filterMap _ _).mp ht
    rw [Multiset.eq_of_mem_replicate hp] at hpt
    cases hpt
  · rw [harriving p hp] at hf
    cases hf
  · refine Multiset.eq_zero_of_forall_notMem fun m hm => ?_
    obtain ⟨stand, hstand, hsm⟩ := (Multiset.mem_filterMap _ _).mp hm
    rw [Multiset.eq_of_mem_replicate hstand] at hsm
    cases hsm
  · exact fun h => nomatch Multiset.eq_of_mem_replicate h
  · rw [harriving p hp] at hf
    cases hf
  · rw [underWay_of_idle fun p hp => harriving p hp ▸ rfl]
    rfl

/-- The request that is under way is the only one and the newest one. -/
theorem of_fetching {value : Option α} {l : Lock}
    (h : Shared fails message a kind k r (.asking p ::ₘ stands) value l made)
    (hp : p.isFetching = true) : value = none ∧ p.number = k + r + 1 ∧
      (∀ q ∈ phases stands, q.isFetching = false) ∧ made.count kind = k + r + 1 := by
  have hguarded := h.guarded
  rw [phases_asking] at hguarded
  have hidle := hguarded.fetching_unique hp
  cases hv : value with
  | none =>
    obtain ⟨-, hnumber, hcount⟩ := h.unknown hv
    refine ⟨rfl, hnumber p (by simp) hp, hidle, ?_⟩
    rw [hcount, phases_asking, underWay_cons, underWay_of_idle hidle, if_pos hp]
  | some v => exact absurd (hp.symm.trans ((h.known v hv).2.2.1 p (by simp))) (by simp)

/-- Whoever is told something is told the value. -/
theorem ready_eq (h : Shared fails message a kind k r (.asking p ::ₘ stands) c.value c.lock made)
    (hanswer : ∀ n, answer n = if fails n then .error (message n) else .ok a) {v : α}
    (hs : c.Step kind answer made p (.ready v) c' made') : v = a := by
  cases hs with
  | found v hp hv hl => exact (h.known v hv).1
  | served v ha hl =>
    rw [hanswer] at ha
    split at ha
    · cases ha
    · exact (Except.ok.inj ha).symm

/-- **A step of a reader keeps to it.** -/
theorem step (h : Shared fails message a kind k r (.asking p ::ₘ stands) c.value c.lock made)
    (hanswer : ∀ n, answer n = if fails n then .error (message n) else .ok a)
    (hs : c.Step kind answer made p progress c' made') :
    ∃ r', Shared fails message a kind k r' (after progress ::ₘ stands) c'.value c'.lock made' := by
  have hguarded : Guarded (phases (after progress ::ₘ stands)) c'.lock := by
    have hg := h.guarded
    rw [phases_asking] at hg
    rw [phases_after]
    exact hg.passage hs.passage
  have hrefused := h.refused
  rw [messages_asking] at hrefused
  cases hs with
  | found v hp hv hl =>
    obtain ⟨hva, -, hidle, hcount, hspared⟩ := h.known v hv
    refine ⟨r, hguarded, by simpa [after] using hrefused, h.failed, fun hn => ?_, fun w hw => ?_⟩
    · rw [hv] at hn
      cases hn
    · obtain rfl := Option.some.inj (hv.symm.trans hw)
      exact ⟨hva, by simp [after], fun q hq => hidle q (by simp_all [after]), hcount, hspared⟩
  | waits t hp hv hl =>
    obtain ⟨htold, hnumber, hcount⟩ := h.unknown hv
    refine ⟨r, hguarded, by simpa [after] using hrefused, h.failed,
      fun _ => ⟨by simpa [after] using htold, fun q hq hf => ?_, ?_⟩, fun w hw => ?_⟩
    · rcases Multiset.mem_cons.mp (phases_asking _ _ ▸ hq) with rfl | hq
      · cases hf
      · exact hnumber q (by simp [hq]) hf
    · rw [hcount, after, phases_asking, phases_asking, underWay_cons, underWay_cons, hp]
      rfl
    · rw [hv] at hw
      cases hw
  | asks t hp hv hl =>
    obtain ⟨htold, -, hcount⟩ := h.unknown hv
    -- Whoever may ask holds the lock, so nobody else has a request under way.
    have hidle : ∀ q ∈ phases stands, q.isFetching = false := by
      rw [after, phases_asking] at hguarded
      exact hguarded.fetching_unique rfl
    have hcount : made.count kind = k + r := by
      rw [hcount, phases_asking, underWay_cons, underWay_of_idle hidle, hp]
      rfl
    have hstart : (made.start kind).1 = k + r + 1 ∧ (made.start kind).2.count kind = k + r + 1 := by
      simp [Requests.start, Requests.count_record, hcount]
    refine ⟨r, hguarded, by simpa [after] using hrefused, h.failed,
      fun _ => ⟨by simpa [after] using htold, fun q hq hf => ?_, ?_⟩, fun w hw => ?_⟩
    · rcases Multiset.mem_cons.mp (phases_asking _ _ ▸ hq) with rfl | hq
      · exact hstart.1
      · exact absurd hf (by simp [hidle q hq])
    · rw [hstart.2, after, phases_asking, underWay_cons, underWay_of_idle hidle]
      rfl
    · rw [hv] at hw
      cases hw
  | @served t n token l v ha hl =>
    obtain ⟨-, rfl, hidle, hcount⟩ := h.of_fetching rfl
    rw [hanswer] at ha
    split at ha
    · cases ha
    · next hspared =>
      refine ⟨r, hguarded, by simpa [after] using hrefused, h.failed, by simp, fun w hw => ?_⟩
      exact ⟨(Option.some.inj hw).symm.trans (Except.ok.inj ha).symm, by simp [after],
        fun q hq => hidle q (by simpa [after] using hq), hcount, Bool.eq_false_iff.mpr hspared⟩
  | @refused t n token l m ha hl =>
    obtain ⟨hv, hn, hidle, hcount⟩ := h.of_fetching rfl
    obtain rfl : n = k + r + 1 := hn
    rw [hanswer] at ha
    split at ha
    · next hfails =>
      obtain rfl := Except.error.inj ha
      refine ⟨r + 1, hguarded, ?_, fun i hi => ?_, fun _ => ⟨?_, fun q hq hf => ?_, ?_⟩,
        fun w hw => ?_⟩
      · rw [after, messages_refused, hrefused, Multiset.range_succ, Multiset.map_cons]
      · rcases Nat.lt_succ_iff_lt_or_eq.mp hi with hi | rfl
        · exact h.failed i hi
        · exact hfails
      · simpa [after] using (h.unknown hv).1
      · exact absurd hf (by simp [hidle q (by simpa [after] using hq)])
      · rw [hcount, after, phases_refused, underWay_of_idle hidle]
        rfl
      · rw [hv] at hw
        cases hw
    · cases ha

/-- **When no reader is on its way any more, each request up to the first one that was answered has
cost one reader**, as far as there were readers to make them. -/
theorem of_ended {value : Option α} {l : Lock} {first : Nat}
    (h : Shared fails message a kind k r stands value l made) (hend : phases stands = 0)
    (hfirst : IsLeast {n | 0 < n ∧ fails (k + n) = false} first) :
    r = min stands.card (first - 1) ∧ made.count kind = k + min stands.card first := by
  have hcard := card_eq stands
  rw [hend, h.refused, Multiset.card_map, Multiset.card_range, Multiset.card_zero,
    Nat.zero_add] at hcard
  obtain ⟨⟨hpos, hspared⟩, hleast⟩ := hfirst
  have hr : r < first := by
    by_contra hle
    have hfailed := h.failed (first - 1) (by omega)
    rw [show k + (first - 1) + 1 = k + first by omega, hspared] at hfailed
    cases hfailed
  cases hv : value with
  | none =>
    obtain ⟨htold, -, hcount⟩ := h.unknown hv
    rw [Multiset.count_eq_zero.mpr htold] at hcard
    rw [hend, underWay_of_idle (by simp)] at hcount
    omega
  | some v =>
    obtain ⟨-, htold, -, hcount, hnext⟩ := h.known v hv
    have hle : first ≤ r + 1 := hleast ⟨by omega, hnext⟩
    have hsome := Multiset.count_pos.mpr htold
    omega

end Shared

end StackExpr
