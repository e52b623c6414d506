import StackExpr.Cache.Cell
import StackExpr.Proofs.Guard
/-!
# What a reader of a cell can do

`Cell.Step` lists the steps of a reader of a cell, each with what it does to the value and to the
lock. **`Cell.advance` makes no others** (`Cell.advance_step`), so what holds of all steps in the
list holds of every reader.
-/

namespace StackExpr

/-- The phase of a reader that is still there. -/
def Progress.phase? {α : Type} : Progress α → Option Phase
  | suspended p => some p
  | _ => none

namespace Cell

variable {α : Type}

/-- The steps of a reader of a cell: the phase before, what the step leads to, and the cell and the
requests made after it. -/
inductive Step (c : Cell α) (kind : RequestKind) (answer : Nat → Except String α)
    (made : Requests) : Phase → Progress α → Cell α → Requests → Prop where
  /-- The value is there. -/
  | found {p : Phase} {l : Lock} (v : α) (hp : p.isFetching = false) (hv : c.value = some v)
    (hl : Passage c.lock p none l) : Step c kind answer made p (.ready v) { c with lock := l } made
  /-- The value is not there and another reader fetches it. -/
  | waits {p : Phase} {l : Lock} (t : Nat) (hp : p.isFetching = false) (hv : c.value = none)
    (hl : Passage c.lock p (some (.waiting t)) l) :
    Step c kind answer made p (.suspended (.waiting t)) { c with lock := l } made
  /-- The value is not there and the reader requests it. -/
  | asks {p : Phase} {l : Lock} (t : Nat) (hp : p.isFetching = false) (hv : c.value = none)
    (hl : Passage c.lock p (some (.fetching t (made.start kind).1 none)) l) :
    Step c kind answer made p (.suspended (.fetching t (made.start kind).1 none))
      { c with lock := l } (made.start kind).2
  /-- The request is answered. -/
  | served {t n : Nat} {token : Option String} {l : Lock} (v : α) (h : answer n = .ok v)
    (hl : Passage c.lock (.fetching t n token) none l) :
    Step c kind answer made (.fetching t n token) (.ready v) ⟨some v, l⟩ made
  /-- The request fails. -/
  | refused {t n : Nat} {token : Option String} {l : Lock} (message : String)
    (h : answer n = .error message) (hl : Passage c.lock (.fetching t n token) none l) :
    Step c kind answer made (.fetching t n token) (.failed message) { c with lock := l } made

/-- A reader with its ticket in hand, where the value is not there. -/
theorem fetchOrWait_step {c c' : Cell α} {p : Phase} {kind : RequestKind}
    {answer : Nat → Except String α} {made made' : Requests} {progress : Progress α}
    (hp : p.isFetching = false) (hv : c.value = none)
    (h : fetchOrWait ⟨none, (p.letIn c.lock).2⟩ kind (p.letIn c.lock).1 made
      = (progress, c', made')) : Step c kind answer made p progress c' made' := by
  have hc : ∀ l, (⟨none, l⟩ : Cell α) = { c with lock := l } := fun l => by rw [hv]
  unfold fetchOrWait at h
  split at h
  · next hheld =>
    obtain ⟨rfl, rfl, rfl⟩ := h
    rw [hc]
    exact .asks _ hp hv (.fetch p _ _ (Or.inr hheld))
  · obtain ⟨rfl, rfl, rfl⟩ := h
    rw [hc]
    exact .waits _ hp hv (.wait p hp)

/-- **Every step of a reader is in the list.** -/
theorem advance_step {c c' : Cell α} {kind : RequestKind} {answer : Nat → Except String α}
    {p : Phase} {made made' : Requests} {progress : Progress α}
    (h : c.advance kind answer p made = (progress, c', made')) :
    Step c kind answer made p progress c' made' := by
  obtain ⟨value, lock⟩ := c
  cases p with
  | fetching t n token =>
    simp only [advance] at h
    split at h
    · next v hv =>
      obtain ⟨rfl, rfl, rfl⟩ := h
      exact .served v hv (.leave _)
    · next message hm =>
      obtain ⟨rfl, rfl, rfl⟩ := h
      exact .refused message hm (.leave _)
  | waiting t =>
    cases value with
    | some v =>
      obtain ⟨rfl, rfl, rfl⟩ := h
      exact .found v rfl rfl (.leave (.waiting t))
    | none => exact fetchOrWait_step rfl rfl h
  | arriving =>
    cases value with
    | some v =>
      obtain ⟨rfl, rfl, rfl⟩ := h
      exact .found v rfl rfl .pass
    | none => exact fetchOrWait_step rfl rfl h

namespace Step

variable {c c' : Cell α} {kind : RequestKind} {answer : Nat → Except String α}
  {made made' : Requests} {p : Phase} {progress : Progress α}

/-- What a step does to the lock. -/
theorem passage (h : Step c kind answer made p progress c' made') :
    Passage c.lock p progress.phase? c'.lock := by
  cases h with
  | found v hp hv hl => exact hl
  | waits t hp hv hl => exact hl
  | asks t hp hv hl => exact hl
  | served v h hl => exact hl
  | refused message h hl => exact hl

end Step

end Cell

end StackExpr
