import Mathlib.Algebra.Order.Group.Multiset
import StackExpr.Fetch
/-!
# The readers of a lock

Every reader of shared data goes through the lock that guards the data. `Passage` says what one step
of a reader may do to the lock: pass it by, stand in its queue, fetch while holding it, give its
ticket back. `Guarded` says how a lock and the readers at it fit together: the tickets of the
readers are the queue, each ticket once, and whoever fetches is at its head.

* `Guarded.passage`: **whatever a reader does, the readers fit the lock afterwards**
* `Guarded.fetching_unique`: at most one of the readers fetches
* `Guarded.exists_holder`: behind every queue there is a reader whose turn it is
-/

namespace StackExpr

namespace Phase

/-- The reader's ticket, and the lock that has given it out. -/
def letIn : Phase → Lock → Nat × Lock
  | arriving, l => l.enter
  | waiting t, l => (t, l)
  | fetching t _ _, l => (t, l)

/-- The reader waits for the answer to a request. -/
def isFetching : Phase → Bool
  | fetching _ _ _ => true
  | _ => false

end Phase

/-- What a step of a reader may do to the lock of the data: the phase before it, the phase after it
if the reader is still there, and the lock after it. -/
inductive Passage (l : Lock) : Phase → Option Phase → Lock → Prop where
  /-- The reader finds what it came for and takes no ticket. -/
  | pass : Passage l .arriving none l
  /-- It gives its ticket back. -/
  | leave (p : Phase) : Passage l p none ((p.letIn l).2.leave (p.letIn l).1)
  /-- It waits. -/
  | wait (p : Phase) (h : p.isFetching = false) :
    Passage l p (some (.waiting (p.letIn l).1)) (p.letIn l).2
  /-- It requests what it came for. -/
  | fetch (p : Phase) (number : Nat) (token : Option String)
    (h : p.isFetching = true ∨ (p.letIn l).2.heldBy (p.letIn l).1 = true) :
    Passage l p (some (.fetching (p.letIn l).1 number token)) (p.letIn l).2

/-- The readers at a lock fit it: their tickets are its queue, and who fetches holds it. -/
structure Guarded (readers : Multiset Phase) (l : Lock) : Prop where
  tickets : readers.filterMap Phase.ticket? = (l.queue : Multiset Nat)
  held : ∀ p ∈ readers, p.isFetching = true → p.ticket? = l.holder

namespace Guarded

variable {readers : Multiset Phase} {p : Phase} {l l' : Lock} {t : Nat}

/-! ## What fits -/

theorem empty : Guarded 0 {} where
  tickets := rfl
  held := fun _ h => absurd h (Multiset.notMem_zero _)

/-- The tickets of the other readers. -/
theorem tickets_erase (h : Guarded (p ::ₘ readers) l) (ht : p.ticket? = some t) :
    readers.filterMap Phase.ticket? = (l.queue.erase t : List Nat) := by
  have hq := h.tickets
  rw [Multiset.filterMap_cons_some _ _ _ ht] at hq
  rw [← Multiset.coe_erase, ← hq, Multiset.erase_cons_head]

/-- No other reader has the same ticket. -/
theorem ticket_ne (h : Guarded (p ::ₘ readers) l) (ht : p.ticket? = some t) {q : Phase}
    (hq : q ∈ readers) : q.ticket? ≠ some t := by
  intro hqt
  have hmem : t ∈ readers.filterMap Phase.ticket? :=
    (Multiset.mem_filterMap _ _).mpr ⟨q, hq, hqt⟩
  rw [h.tickets_erase ht, Multiset.mem_coe] at hmem
  exact List.Nodup.not_mem_erase l.nodup hmem

/-- The readers without one that has no ticket. -/
theorem tickets_of_none (h : Guarded (p ::ₘ readers) l) (ht : p.ticket? = none) :
    readers.filterMap Phase.ticket? = (l.queue : Multiset Nat) := by
  rw [← h.tickets, Multiset.filterMap_cons_none _ _ ht]

theorem tail_held (h : Guarded (p ::ₘ readers) l) :
    ∀ q ∈ readers, q.isFetching = true → q.ticket? = l.holder :=
  fun q hq => h.held q (Multiset.mem_cons_of_mem hq)

/-- Among the readers at a lock at most one fetches. -/
theorem fetching_unique (h : Guarded (p ::ₘ readers) l) (hp : p.isFetching = true) :
    ∀ q ∈ readers, q.isFetching = false := by
  intro q hq
  cases hf : q.isFetching with
  | false => rfl
  | true =>
    have hpt := h.held p (Multiset.mem_cons_self _ _) hp
    have hqt := h.tail_held q hq hf
    cases p with
    | arriving => simp [Phase.isFetching] at hp
    | waiting t => simp [Phase.isFetching] at hp
    | fetching t n token => exact absurd (hqt.trans hpt.symm) (h.ticket_ne rfl hq)

theorem card_fetching_le_one (h : Guarded readers l) :
    (readers.filter fun p => p.isFetching = true).card ≤ 1 := by
  by_cases hp : ∃ p ∈ readers, p.isFetching = true
  · obtain ⟨p, hmem, hf⟩ := hp
    obtain ⟨others, rfl⟩ := Multiset.exists_cons_of_mem hmem
    have hothers : others.filter (fun p => p.isFetching = true) = 0 :=
      Multiset.filter_eq_nil.mpr fun q hq => by simp [h.fetching_unique hf q hq]
    have hself : (p ::ₘ others).filter (fun p => p.isFetching = true)
        = p ::ₘ others.filter fun p => p.isFetching = true := Multiset.filter_cons_of_pos _ hf
    rw [hself, hothers, Multiset.cons_zero, Multiset.card_singleton]
  · rw [Multiset.filter_eq_nil.mpr fun p hmem hf => hp ⟨p, hmem, hf⟩]
    exact Nat.zero_le 1

/-- The head of the queue is a reader's ticket. -/
theorem exists_holder (h : Guarded readers l) (ht : l.holder = some t) :
    ∃ p ∈ readers, p.ticket? = some t := by
  have hmem : t ∈ l.queue := List.mem_of_mem_head? (Option.mem_def.mpr ht)
  rw [← Multiset.mem_coe, ← h.tickets] at hmem
  exact (Multiset.mem_filterMap _ _).mp hmem

/-! ## Readers that come and go -/

/-- A reader that has not begun has no ticket. -/
theorem arrive (h : Guarded readers l) : Guarded (.arriving ::ₘ readers) l where
  tickets := by rw [Multiset.filterMap_cons_none _ _ rfl, h.tickets]
  held := by
    intro q hq hf
    rcases Multiset.mem_cons.mp hq with rfl | hq
    · simp [Phase.isFetching] at hf
    · exact h.held q hq hf

/-- A lock whose queue has lost a ticket that is no holder's has the same holder. -/
theorem holder_leave {u : Nat} (hu : l.holder = some u) (hne : u ≠ t) :
    (l.leave t).holder = some u := by
  cases hq : l.queue with
  | nil => simp [Lock.holder, hq] at hu
  | cons v q =>
    have hv : v = u := by simpa [Lock.holder, hq] using hu
    subst hv
    rw [Lock.holder, Lock.queue_leave, hq, List.erase_cons_tail (by simpa using hne)]
    rfl

/-- A reader gives its ticket back. -/
theorem depart (h : Guarded (p ::ₘ readers) l) (ht : p.ticket? = some t) :
    Guarded readers (l.leave t) where
  tickets := by rw [h.tickets_erase ht, Lock.queue_leave]
  held := by
    intro q hq hf
    have hqt := h.tail_held q hq hf
    cases q with
    | arriving => simp [Phase.isFetching] at hf
    | waiting u => simp [Phase.isFetching] at hf
    | fetching u n token =>
      -- Whoever fetches is another reader than the one that goes, so it has another ticket.
      have hne : u ≠ t := by
        rintro rfl
        exact h.ticket_ne ht hq rfl
      rw [holder_leave hqt.symm hne]
      rfl

/-- A reader goes away, with a ticket or without one. -/
theorem release (h : Guarded (p ::ₘ readers) l) : Guarded readers (p.release l) := by
  cases p with
  | arriving => exact ⟨h.tickets_of_none rfl, h.tail_held⟩
  | waiting t => exact h.depart rfl
  | fetching t n token => exact h.depart rfl

/-- A reader takes a ticket. -/
theorem enter (h : Guarded (.arriving ::ₘ readers) l) :
    Guarded (.waiting l.enter.1 ::ₘ readers) l.enter.2 where
  tickets := by
    have hw : (Phase.waiting l.enter.1).ticket? = some l.enter.1 := rfl
    rw [Multiset.filterMap_cons_some _ _ _ hw, h.tickets_of_none rfl, Lock.queue_enter,
      ← Multiset.coe_add, Multiset.add_comm, Multiset.coe_singleton, Multiset.singleton_add]
  held := by
    intro q hq hf
    rcases Multiset.mem_cons.mp hq with rfl | hq
    · simp [Phase.isFetching] at hf
    · have hqt := h.tail_held q hq hf
      cases q with
      | arriving => simp [Phase.isFetching] at hf
      | waiting u => simp [Phase.isFetching] at hf
      | fetching u n token =>
        -- The new ticket stands at the end of the queue, so the holder is the same.
        rw [Lock.holder_enter hqt.symm]
        rfl

/-! ## Steps -/

/-- The reader with its ticket in hand. -/
theorem letIn (h : Guarded (p ::ₘ readers) l) :
    ∃ q, q.ticket? = some (p.letIn l).1 ∧ (p.isFetching = true → p = q) ∧
      Guarded (q ::ₘ readers) (p.letIn l).2 := by
  cases p with
  | arriving => exact ⟨_, rfl, by simp [Phase.isFetching], h.enter⟩
  | waiting t => exact ⟨_, rfl, by simp [Phase.isFetching], h⟩
  | fetching t n token => exact ⟨_, rfl, fun _ => rfl, h⟩

/-- A reader with a ticket may take any phase with that ticket that it is entitled to. -/
theorem replace (h : Guarded (p ::ₘ readers) l) {q : Phase} (hq : q.ticket? = p.ticket?)
    (hh : q.isFetching = true → p.ticket? = l.holder) : Guarded (q ::ₘ readers) l where
  tickets := by
    rw [← h.tickets, Multiset.filterMap_cons, Multiset.filterMap_cons, hq]
  held := by
    intro r hr hf
    rcases Multiset.mem_cons.mp hr with rfl | hr
    · rw [hq, hh hf]
    · exact h.tail_held r hr hf

/-- **Whatever a step of a reader does to the lock, the readers fit the lock afterwards.** -/
theorem passage (h : Guarded (p ::ₘ readers) l) {p' : Option Phase} (hp : Passage l p p' l') :
    Guarded (p'.elim 0 singleton + readers) l' := by
  -- A reader that does not pass by has its ticket in hand, then gives it back or keeps it.
  cases hp with
  | pass => simpa using (⟨h.tickets_of_none rfl, h.tail_held⟩ : Guarded readers l)
  | leave _ =>
    obtain ⟨q, hq, -, hg⟩ := h.letIn
    simpa using hg.depart hq
  | wait _ hf =>
    obtain ⟨q, hq, -, hg⟩ := h.letIn
    exact hg.replace hq.symm (by simp [Phase.isFetching])
  | fetch _ number token hf =>
    obtain ⟨q, hq, hpq, hg⟩ := h.letIn
    refine hg.replace hq.symm fun _ => ?_
    -- It fetches because it has fetched before, or because its ticket is at the head.
    rcases hf with hf | hf
    · exact hg.held q (Multiset.mem_cons_self _ _) (hpq hf ▸ hf)
    · rw [hq]
      exact (by simpa [Lock.heldBy] using hf : _ = some _).symm

end Guarded

end StackExpr
