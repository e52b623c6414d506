import StackExpr.EvalError
import StackExpr.Json
import StackExpr.Session
/-!
# Jobs

A `Job` is what remains to be done of an evaluation: a result, or the next thing it does and how it
goes on from there. Jobs are put together by `bind`; nothing happens until one is run
(`StackExpr.Job.Run`).

Two kinds of job have parts that may fail on their own. The parts of a `gather` run side by side.
An `attempt` goes on when its part fails for want of a value; a cloud that does not answer is not
caught.
-/

namespace StackExpr

/-- What remains to be done of an evaluation whose result is an `α`. -/
inductive Job : Type → Type 1 where
  /-- The evaluation has ended. -/
  | done {α : Type} (result : Except Failure α) : Job α
  /-- Opens a stack in a region, with caches of its own, and goes on with their number. -/
  | openStack {α : Type} (stack region : String) (next : Nat → Job α) : Job α
  /-- Asks the caches with a number; the phase says how far the answer is. -/
  | ask {α : Type} (id : Nat) (q : Query) (phase : Phase) (next : q.Answer → Job α) : Job α
  /-- Runs parts side by side and goes on with their values. -/
  | gather {α : Type} (parts : List (Job Json)) (next : List Json → Job α) : Job α
  /-- Runs a part and goes on with its value or with the reason why it has none. -/
  | attempt {α : Type} (part : Job Json) (next : Except EvalError Json → Job α) : Job α

namespace Job

variable {α β : Type}

/-- Goes on with the value of a job. -/
def bind : {α : Type} → Job α → (α → Job β) → Job β
  | _, done (.ok a), f => f a
  | _, done (.error e), _ => done (.error e)
  | _, openStack stack region next, f => openStack stack region fun id => bind (next id) f
  | _, ask id q phase next, f => ask id q phase fun a => bind (next a) f
  | _, gather parts next, f => gather parts fun vs => bind (next vs) f
  | _, attempt part next, f => attempt part fun r => bind (next r) f

instance : Monad Job where
  pure a := done (.ok a)
  bind := bind

/-- The job that has failed for want of a value. -/
def fail (e : EvalError) : Job α := done (.error (.evaluation e))

/-- The value, or the reason why there is none. -/
def ofExcept : Except EvalError α → Job α
  | .ok a => pure a
  | .error e => fail e

/-- The value, or a failure for want of it. -/
def ofOption (e : EvalError) : Option α → Job α
  | some a => pure a
  | none => fail e

/-- Asks the caches with a number. -/
def query (id : Nat) (q : Query) : Job q.Answer := ask id q .arriving fun a => pure a

/-- Runs parts side by side. -/
def all (parts : List (Job Json)) : Job (List Json) := gather parts fun vs => pure vs

/-- The value of a job, or the reason why it has none. -/
def outcome (part : Job Json) : Job (Except EvalError Json) := attempt part fun r => pure r

/-! ## Jobs that have ended -/

/-- The result of a job that has ended. -/
def result? : Job α → Option (Except Failure α)
  | done r => some r
  | _ => none

/-- The value of a job that has ended with one. -/
def value? (job : Job α) : Option α :=
  match job.result? with
  | some (.ok v) => some v
  | _ => none

/-- The failure of a job that has failed. -/
def failure? (job : Job α) : Option Failure :=
  match job.result? with
  | some (.error e) => some e
  | _ => none

end Job

end StackExpr
