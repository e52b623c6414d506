import StackExpr.Fetch
/-!
# Values fetched once

A `Cell` holds one value, which its first reader fetches. While the fetch is under way other readers
wait; a fetch that succeeds serves them all, one that fails concerns its own reader only, and the
next reader in the queue fetches.
-/

namespace StackExpr

/-- A value that may not have been fetched yet, and the lock of those who fetch it. -/
structure Cell (α : Type) where
  value : Option α := none
  lock : Lock := {}

namespace Cell

variable {α : Type}

/-- The holder of the lock starts a request; another reader waits. -/
def fetchOrWait (c : Cell α) (kind : RequestKind) (ticket : Nat) (made : Requests) :
    Progress α × Cell α × Requests :=
  if c.lock.heldBy ticket then
    let (number, made) := made.start kind
    (.suspended (.fetching ticket number none), c, made)
  else (.suspended (.waiting ticket), c, made)

/-- One step of a reader. The value, if it is not there, is the answer to a request of this
kind. -/
def advance (c : Cell α) (kind : RequestKind) (answer : (number : Nat) → Except String α)
    (phase : Phase) (made : Requests) : Progress α × Cell α × Requests :=
  match phase with
  | .fetching ticket number _ =>
    match answer number with
    | .ok v => (.ready v, ⟨some v, c.lock.leave ticket⟩, made)
    | .error message => (.failed message, { c with lock := c.lock.leave ticket }, made)
  | .waiting ticket =>
    match c.value with
    | some v => (.ready v, { c with lock := c.lock.leave ticket }, made)
    | none => c.fetchOrWait kind ticket made
  | .arriving =>
    match c.value with
    | some v => (.ready v, c, made)
    | none =>
      let (ticket, lock) := c.lock.enter
      { c with lock }.fetchOrWait kind ticket made

/-- A reader goes away. -/
def release (c : Cell α) (phase : Phase) : Cell α := { c with lock := phase.release c.lock }

end Cell

end StackExpr
