import StackExpr.Cache.Cell
import StackExpr.Cache.ExportScan
/-!
# Sessions

The evaluations of one stack share what they read from the cloud: the resources of the stack, the
URL suffix of its region and the exports of the account. These are the `Caches` of the stack. A
`Session` holds the caches of every stack that was opened in it, by number, and counts the requests
made so far by all of them.

A `Query` is a question to the caches of a stack. It is answered in steps (`Session.advance`), and
whoever asked may go away before the answer (`Session.release`).
-/

namespace StackExpr

/-- What the evaluations of a stack share. -/
structure Caches where
  stack : String
  region : String
  inventory : Cell (List StackResource) := {}
  urlSuffix : Cell String := {}
  exports : ExportScan := {}

/-- A question to the caches of a stack. -/
inductive Query where
  /-- The resources of the stack. -/
  | inventory
  /-- The URL suffix of the stack's region. -/
  | urlSuffix
  /-- The export of this name. -/
  | exportNamed (name : String)
  deriving DecidableEq

/-- What a question is answered with. -/
@[reducible] def Query.Answer : Query → Type
  | .inventory => List StackResource
  | .urlSuffix => String
  | .exportNamed _ => Option Export

namespace Caches

/-- One step towards the answer to a question. -/
def advance (c : Caches) (client : Client) (phase : Phase) (made : Requests) :
    (q : Query) → Progress q.Answer × Caches × Requests
  | .inventory =>
    let (progress, inventory, made) :=
      c.inventory.advance .stackResources (client.answer (.stackResources c.stack)) phase made
    (progress, { c with inventory }, made)
  | .urlSuffix =>
    let (progress, urlSuffix, made) :=
      c.urlSuffix.advance .urlSuffix (client.answer (.urlSuffix c.region)) phase made
    (progress, { c with urlSuffix }, made)
  | .exportNamed name =>
    let (progress, exports, made) := c.exports.advance client name phase made
    (progress, { c with exports }, made)

/-- Whoever asked goes away. -/
def release (c : Caches) (phase : Phase) : Query → Caches
  | .inventory => { c with inventory := c.inventory.release phase }
  | .urlSuffix => { c with urlSuffix := c.urlSuffix.release phase }
  | .exportNamed _ => { c with exports := c.exports.release phase }

end Caches

/-- The requests made so far and the caches of the stacks that were opened. -/
structure Session where
  requests : Requests := {}
  caches : List Caches := []

namespace Session

/-- Opens a stack with empty caches and gives their number. -/
def openStack (s : Session) (stack region : String) : Nat × Session :=
  (s.caches.length, { s with caches := s.caches ++ [{ stack, region }] })

/-- One step towards the answer to a question to the caches with a number. Caches that were never
opened do not answer. -/
def advance (s : Session) (client : Client) (id : Nat) (phase : Phase) (q : Query) :
    Progress q.Answer × Session :=
  match s.caches[id]? with
  | some c =>
    let (progress, c, requests) := c.advance client phase s.requests q
    (progress, { requests, caches := s.caches.set id c })
  | none => (.suspended phase, s)

/-- Whoever asked goes away. -/
def release (s : Session) (id : Nat) (phase : Phase) (q : Query) : Session :=
  { s with caches := s.caches.modify id fun c => c.release phase q }

end Session

end StackExpr
