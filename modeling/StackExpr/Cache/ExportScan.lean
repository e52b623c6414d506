import StackExpr.Fetch
/-!
# Looking up exports page by page

The exports of an account are read one page after the other, and only as far as lookups need them.
All named exports of the pages read so far are remembered. A lookup holds the lock from its
beginning to its end; if a request fails, what was read before stays and the next lookup goes on
from there.
-/

namespace StackExpr

/-- Where a scan stands. -/
inductive Cursor where
  /-- The page with this token is read next; without a token it is the first page. -/
  | page (token : Option String)
  /-- All pages were read. -/
  | exhausted
  deriving DecidableEq

/-- The cursor behind a page. -/
def Cursor.behind (page : ExportsPage) : Cursor :=
  match page.next with
  | some token => .page (some token)
  | none => exhausted

/-- The exports seen so far, by name, and where to go on. -/
structure ExportScan where
  found : Dict Export := []
  cursor : Cursor := .page none
  lock : Lock := {}

/-- Remembers exports by their names. Exports without a name cannot be asked for. -/
def rememberExports (found : Dict Export) (exports : List Export) : Dict Export :=
  found.insertAll (exports.filterMap fun e => e.name.map fun name => (name, e))

namespace ExportScan

/-- The scan after a page. -/
def turn (s : ExportScan) (page : ExportsPage) : ExportScan :=
  { s with found := rememberExports s.found page.exports, cursor := .behind page }

/-- The reader with the lock answers from what was seen, or requests the page at the cursor. -/
def lookOrFetch (s : ExportScan) (name : String) (ticket : Nat) (made : Requests) :
    Progress (Option Export) × ExportScan × Requests :=
  match s.found.get? name with
  | some e => (.ready (some e), { s with lock := s.lock.leave ticket }, made)
  | none =>
    match s.cursor with
    | .exhausted => (.ready none, { s with lock := s.lock.leave ticket }, made)
    | .page token =>
      let (number, made) := made.start .exports
      (.suspended (.fetching ticket number token), s, made)

/-- Goes on if the reader holds the lock; else it waits. -/
def lookOrWait (s : ExportScan) (name : String) (ticket : Nat) (made : Requests) :
    Progress (Option Export) × ExportScan × Requests :=
  if s.lock.heldBy ticket then s.lookOrFetch name ticket made
  else (.suspended (.waiting ticket), s, made)

/-- One step of a lookup. -/
def advance (s : ExportScan) (client : Client) (name : String) (phase : Phase) (made : Requests) :
    Progress (Option Export) × ExportScan × Requests :=
  match phase with
  | .fetching ticket number token =>
    match client.answer (.exports token) number with
    | .ok page => (s.turn page).lookOrFetch name ticket made
    | .error message => (.failed message, { s with lock := s.lock.leave ticket }, made)
  | .waiting ticket => s.lookOrWait name ticket made
  | .arriving =>
    let (ticket, lock) := s.lock.enter
    { s with lock }.lookOrWait name ticket made

/-- A reader goes away. -/
def release (s : ExportScan) (phase : Phase) : ExportScan :=
  { s with lock := phase.release s.lock }

end ExportScan

end StackExpr
