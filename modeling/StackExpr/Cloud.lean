import StackExpr.Dict
import StackExpr.Decimal
import StackExpr.Text.Quoted
/-!
# The deployed state

A `Cloud` is what is deployed in an account: the resources of each stack, the exports of the account
in pages, and the suffix of the URLs of its services. It answers three kinds of request
(`Request`); the pages of exports are chained by tokens, the token of a page being its index.

A `Client` is a cloud whose requests may fail: `faults` names the requests that do, by kind and by
number in the order they are made. `Requests` counts them.
-/

namespace StackExpr

/-- A deployed resource of a stack. -/
structure StackResource where
  logicalId : String
  physicalId : Option String
  type : String
  deriving DecidableEq

/-- An export of the account. -/
structure Export where
  name : Option String
  value : Option String
  deriving DecidableEq

/-- A page of exports and the token of the page after it, if there is one. -/
structure ExportsPage where
  exports : List Export
  next : Option String
  deriving DecidableEq

/-- What is deployed in an account. There are no more pages of exports than 64-bit indices can
number. -/
structure Cloud where
  inventories : Dict (List StackResource) := []
  exportPages : List (List Export) := []
  urlSuffix : Option String := none
  pages_lt : exportPages.length < UInt64.size := by decide

/-! ## Requests -/

/-- A question to the cloud. -/
inductive Request where
  /-- The resources of a stack. -/
  | stackResources (stack : String)
  /-- The page of exports with this token; the first page without one. -/
  | exports (token : Option String)
  /-- The URL suffix of a region. -/
  | urlSuffix (region : String)
  deriving DecidableEq

/-- The kinds of request. -/
inductive RequestKind where
  | stackResources
  | exports
  | urlSuffix
  deriving DecidableEq

namespace Request

/-- What a request is answered with. -/
@[reducible] def Response : Request → Type
  | .stackResources _ => List StackResource
  | .exports _ => ExportsPage
  | .urlSuffix _ => String

/-- The kind of a request. -/
def kind : Request → RequestKind
  | .stackResources _ => .stackResources
  | .exports _ => .exports
  | .urlSuffix _ => .urlSuffix

end Request

namespace Cloud

/-- The page with an index; behind the last page all pages are empty. The index of the page that
follows is a 64-bit number, so behind the last index comes the first one. -/
def page (c : Cloud) (index : Nat) : ExportsPage :=
  let following := (index + 1) % UInt64.size
  { exports := (c.exportPages[index]?).getD []
    next := if following < c.exportPages.length then some (Decimal.toText following) else none }

/-- The URL suffix of a region where none is given. -/
def defaultUrlSuffix (region : String) : String :=
  if ['c', 'n', '-'].isPrefixOf region.toList then "amazonaws.com.cn" else "amazonaws.com"

/-- The answer to a request, or why there is none. -/
def answer (c : Cloud) : (r : Request) → Except String r.Response
  | .stackResources stack =>
    match c.inventories.get? stack with
    | some resources => .ok resources
    | none => .error ("Stack with id " ++ stack ++ " does not exist")
  | .exports none => .ok (c.page 0)
  | .exports (some token) =>
    match Decimal.word64? token.toList with
    | some index => .ok (c.page index)
    | none => .error ("Invalid NextToken " ++ Text.display token)
  | .urlSuffix region => .ok (c.urlSuffix.getD (defaultUrlSuffix region))

/-- The cloud with the resources of a stack replaced. -/
def withStack (c : Cloud) (stack : String) (resources : List StackResource) : Cloud :=
  { c with inventories := c.inventories.insert stack resources }

/-- The cloud with one more page of exports; behind the last page that has an index there is no room
for it. -/
def withExportPage (c : Cloud) (exports : List Export) : Cloud :=
  if h : (c.exportPages ++ [exports]).length < UInt64.size then
    { c with exportPages := c.exportPages ++ [exports], pages_lt := h }
  else c

/-- The cloud with a URL suffix for every region. -/
def withUrlSuffix (c : Cloud) (suffix : String) : Cloud := { c with urlSuffix := some suffix }

end Cloud

/-! ## Clients -/

/-- The number of requests made, by kind. -/
structure Requests where
  stackResources : Nat := 0
  exports : Nat := 0
  urlSuffix : Nat := 0
  deriving DecidableEq

namespace Requests

/-- The number of requests of a kind. -/
def count (r : Requests) : RequestKind → Nat
  | .stackResources => r.stackResources
  | .exports => r.exports
  | .urlSuffix => r.urlSuffix

/-- One more request of a kind. -/
def record (r : Requests) : RequestKind → Requests
  | .stackResources => { r with stackResources := r.stackResources + 1 }
  | .exports => { r with exports := r.exports + 1 }
  | .urlSuffix => { r with urlSuffix := r.urlSuffix + 1 }

theorem count_record (r : Requests) (k kind : RequestKind) :
    (r.record k).count kind = r.count kind + if k = kind then 1 else 0 := by
  cases k <;> cases kind <;> rfl

end Requests

/-- The requests that fail: their numbers, from 1, by kind. -/
structure Faults where
  stackResources : List Nat := []
  exports : List Nat := []
  urlSuffix : List Nat := []

namespace Faults

/-- The request number `n` of a kind fails. -/
def hits (f : Faults) (kind : RequestKind) (n : Nat) : Bool :=
  match kind with
  | .stackResources => f.stackResources.contains n
  | .exports => f.exports.contains n
  | .urlSuffix => f.urlSuffix.contains n

/-- No request fails. -/
def none : Faults := {}

end Faults

/-- A cloud some of whose requests fail. -/
structure Client where
  cloud : Cloud
  faults : Faults := .none

namespace Client

/-- The answer to a request that is number `n` of its kind. -/
def answer (c : Client) (r : Request) (n : Nat) : Except String r.Response :=
  if c.faults.hits r.kind n then .error ("request " ++ Decimal.toText n ++ " failed")
  else c.cloud.answer r

end Client

end StackExpr
