/-!
# A lock with a queue

Whoever wants the lock takes a ticket (`enter`). The ticket at the head of the queue holds the lock,
the others wait behind it in the order in which they came. A ticket may be given back at any time,
held or waiting (`leave`); when the holder gives it back, the lock is the next one's.

Since the holder is the head of the queue, the lock is free exactly when nobody waits
(`holder_eq_none_iff`), and giving tickets back in another order leaves the same queue
(`queue_leave_comm`).
-/

namespace StackExpr

/-- A lock: the tickets that were taken and not given back, and the number of the next one. -/
structure Lock where
  queue : List Nat := []
  next : Nat := 0
  fresh : ∀ t ∈ queue, t < next := by exact fun _ h => absurd h List.not_mem_nil
  nodup : queue.Nodup := by exact .nil

namespace Lock

/-- The ticket that holds the lock. -/
def holder (l : Lock) : Option Nat := l.queue.head?

/-- The ticket holds the lock. -/
def heldBy (l : Lock) (ticket : Nat) : Bool := l.holder == some ticket

/-- Takes a ticket. -/
def enter (l : Lock) : Nat × Lock :=
  (l.next,
    { queue := l.queue ++ [l.next]
      next := l.next + 1
      fresh := by
        intro t ht
        rcases List.mem_append.mp ht with h | h
        · exact Nat.lt_succ_of_lt (l.fresh t h)
        · simp at h; omega
      nodup := by
        refine List.nodup_append.mpr ⟨l.nodup, List.pairwise_singleton _ _, ?_⟩
        intro t ht u hu
        have := l.fresh t ht
        simp at hu; omega })

/-- Gives a ticket back. -/
def leave (l : Lock) (ticket : Nat) : Lock :=
  { queue := l.queue.erase ticket
    next := l.next
    fresh := fun t ht => l.fresh t (List.mem_of_mem_erase ht)
    nodup := l.nodup.erase ticket }

theorem holder_eq_none_iff {l : Lock} : l.holder = none ↔ l.queue = [] := by
  simp [holder]

theorem next_notMem_queue (l : Lock) : l.next ∉ l.queue := fun h =>
  Nat.lt_irrefl _ (l.fresh _ h)

theorem queue_enter (l : Lock) : l.enter.2.queue = l.queue ++ [l.enter.1] := rfl

theorem queue_leave (l : Lock) (t : Nat) : (l.leave t).queue = l.queue.erase t := rfl

theorem queue_leave_comm (l : Lock) (t u : Nat) :
    ((l.leave t).leave u).queue = ((l.leave u).leave t).queue := by
  simp [queue_leave, List.erase_comm]

/-- A free lock is free again when whoever entered it leaves. -/
theorem queue_enter_leave {l : Lock} (h : l.queue = []) :
    (l.enter.2.leave l.enter.1).queue = [] := by
  rw [queue_leave, queue_enter, h, List.nil_append, List.erase_cons_head]

/-- Entering does not take the lock from its holder. -/
theorem holder_enter {l : Lock} {t : Nat} (h : l.holder = some t) :
    l.enter.2.holder = some t := by
  cases hq : l.queue with
  | nil => simp [holder, hq] at h
  | cons u q => simp_all [holder, queue_enter]

/-- A free lock is held by whoever enters. -/
theorem heldBy_enter {l : Lock} : l.enter.2.heldBy l.enter.1 = true ↔ l.holder = none := by
  cases hq : l.queue with
  | nil => simp [heldBy, holder, queue_enter, hq]
  | cons u q =>
    have hu : u ≠ l.next := by
      intro h
      exact next_notMem_queue l (by simp [hq, h])
    simp [heldBy, holder, enter, hq, hu]

end Lock

end StackExpr
