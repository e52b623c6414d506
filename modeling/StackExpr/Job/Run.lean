import StackExpr.Job
/-!
# Running jobs

Jobs run in rounds. In each round every job that has not ended goes on, in order, until it ends or
waits for the cloud or for another reader (`step`).

The parts of a `gather` go on in order as well. When a part fails, the `gather` fails and all other
parts are called off: those before it in this round have run, those behind it have not. A short
`gather` fails as soon as any part does; a long one, of more than thirty parts, reports a failure
only when all parts before it have their values.
-/

namespace StackExpr.Job

variable {α : Type}

mutual

/-- Calls a job off: whatever it waits for, it gives its tickets back. -/
def cancel : {α : Type} → Job α → Session → Session
  | _, ask id q phase _, s => s.release id phase q
  | _, gather parts _, s => cancelAll parts s
  | _, attempt part _, s => cancel part s
  | _, _, s => s

/-- Calls all jobs of a list off. -/
def cancelAll : List (Job Json) → Session → Session
  | [], s => s
  | job :: jobs, s => cancelAll jobs (cancel job s)

end

/-- The number of parts up to which a failure counts at once. -/
def shortLength : Nat := 30

mutual

/-- Goes on with a job until it ends or waits. -/
def step (client : Client) : {α : Type} → Job α → Session → Job α × Session
  | _, done r, s => (done r, s)
  | _, openStack stack region next, s =>
    let (id, s) := s.openStack stack region
    step client (next id) s
  | _, ask id q phase next, s =>
    match s.advance client id phase q with
    | (.ready a, s) => step client (next a) s
    | (.failed message, s) => (done (.error (.client message)), s)
    | (.suspended phase, s) => (ask id q phase next, s)
  | _, gather parts next, s =>
    match stepParts client (parts.length ≤ shortLength) true parts s with
    | (.error e, s) => (done (.error e), s)
    | (.ok parts, s) =>
      match parts.mapM value? with
      | some vs => step client (next vs) s
      | none => (gather parts next, s)
  | _, attempt part next, s =>
    let (part, s) := step client part s
    match part.result? with
    | some (.ok v) => step client (next (.ok v)) s
    | some (.error (.evaluation e)) => step client (next (.error e)) s
    | some (.error e) => (done (.error e), s)
    | none => (attempt part next, s)

/-- Goes on with every part in order; all are called off when one fails that counts. A failure
counts if the parts are few (`short`), or if all parts before it have their values (`settled`). -/
def stepParts (client : Client) (short settled : Bool) :
    List (Job Json) → Session → Except Failure (List (Job Json)) × Session
  | [], s => (.ok [], s)
  | part :: parts, s =>
    let (part, s) := step client part s
    match part.failure?, short || settled with
    | some e, true => (.error e, cancelAll parts s)
    | _, _ =>
      match stepParts client short (settled && part.value?.isSome) parts s with
      | (.ok parts, s) => (.ok (part :: parts), s)
      | (.error e, s) => (.error e, cancel part s)

end

/-! ## Rounds -/

/-- One round: every job goes on in order. -/
def round (client : Client) : List (Job α) → Session → List (Job α) × Session
  | [], s => ([], s)
  | job :: jobs, s =>
    let (job, s) := step client job s
    let (jobs, s) := round client jobs s
    (job :: jobs, s)

/-- Rounds until all jobs have ended, at most `n` of them. -/
def rounds (client : Client) : (n : Nat) → List (Job α) → Session → List (Job α) × Session
  | 0, jobs, s => (jobs, s)
  | n + 1, jobs, s =>
    if jobs.all (·.result?.isSome) then (jobs, s)
    else
      let (jobs, s) := round client jobs s
      rounds client n jobs s

/-- The rounds after which running is given up. -/
def patience : Nat := UInt64.size

/-- Runs jobs side by side to their ends. -/
def runAll (client : Client) (jobs : List (Job α)) (s : Session) :
    List (Except Failure α) × Session :=
  let (jobs, s) := rounds client patience jobs s
  (jobs.map fun job => job.result?.getD (.error .tooDeep), s)

/-- Runs a job to its end. -/
def run (client : Client) (job : Job α) (s : Session) : Except Failure α × Session :=
  let (job, s) := rounds client patience [job] s
  ((job.head?.bind result?).getD (.error .tooDeep), s)

end StackExpr.Job
