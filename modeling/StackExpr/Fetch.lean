import StackExpr.Cloud
import StackExpr.Lock
/-!
# Fetching what is shared

Data that several readers want is fetched once. A reader takes a ticket of the lock that guards the
data; the holder fetches, the others wait. A request counts when it is started and is answered one
step later, so between the two a reader is `fetching` and others may run.

`Phase` says where a reader stands, `Progress` what a step of it led to.
-/

namespace StackExpr

/-- Where a reader of shared data stands. -/
inductive Phase where
  /-- It has not begun. -/
  | arriving
  /-- It waits for the lock. -/
  | waiting (ticket : Nat)
  /-- It holds the lock and waits for the answer to a request, known by its number. A request for
  exports is for the page with this token. -/
  | fetching (ticket number : Nat) (token : Option String)
  deriving DecidableEq

namespace Phase

/-- The ticket the reader has. -/
def ticket? : Phase → Option Nat
  | arriving => none
  | waiting t => some t
  | fetching t _ _ => some t

/-- Gives back the reader's ticket. -/
def release (p : Phase) (l : Lock) : Lock :=
  match p.ticket? with
  | some t => l.leave t
  | none => l

end Phase

/-- What a step of a reader led to. -/
inductive Progress (α : Type) where
  | ready (value : α)
  | failed (message : String)
  | suspended (phase : Phase)

/-- Starts a request: counts it and gives its number. -/
def Requests.start (made : Requests) (kind : RequestKind) : Nat × Requests :=
  let made := made.record kind
  (made.count kind, made)

end StackExpr
