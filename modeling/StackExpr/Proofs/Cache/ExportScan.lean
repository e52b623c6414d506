import StackExpr.Cache.ExportScan
import StackExpr.Proofs.Cache.Cell
/-!
# What a lookup of an export can do

`ExportScan.Step` lists the steps of a lookup, each with what it does to the exports seen so far, to
the cursor and to the lock. **`ExportScan.advance` makes no others** (`ExportScan.advance_step`).

A lookup that holds the lock looks among the exports seen so far (`ExportScan.Look`). It does so
when it gets the lock, and again after every page it has read.
-/

namespace StackExpr.ExportScan

/-- What a lookup that holds the lock finds: the progress it makes and the requests made then. -/
inductive Look (s : ExportScan) (name : String) (ticket : Nat) (made : Requests) :
    Progress (Option Export) → Requests → Prop where
  /-- The export was seen. -/
  | found (e : Export) (h : s.found.get? name = some e) :
    Look s name ticket made (.ready (some e)) made
  /-- It was not seen, and all pages were read. -/
  | missing (h : s.found.get? name = none) (hc : s.cursor = .exhausted) :
    Look s name ticket made (.ready none) made
  /-- It was not seen on the pages before the cursor. -/
  | asks (token : Option String) (h : s.found.get? name = none) (hc : s.cursor = .page token) :
    Look s name ticket made (.suspended (.fetching ticket (made.start .exports).1 token))
      (made.start .exports).2

/-- The steps of a lookup: the phase before, what the step leads to, and the scan and the requests
made after it. -/
inductive Step (s : ExportScan) (client : Client) (name : String) (made : Requests) :
    Phase → Progress (Option Export) → ExportScan → Requests → Prop where
  /-- The lookup gets the lock, or has just got it. -/
  | looks {p : Phase} {l : Lock} {progress : Progress (Option Export)} {made' : Requests} (t : Nat)
    (hp : p.isFetching = false) (hs : Look s name t made progress made')
    (hl : Passage s.lock p progress.phase? l) :
    Step s client name made p progress { s with lock := l } made'
  /-- Another lookup holds the lock. -/
  | waits {p : Phase} {l : Lock} (t : Nat) (hp : p.isFetching = false)
    (hl : Passage s.lock p (some (.waiting t)) l) :
    Step s client name made p (.suspended (.waiting t)) { s with lock := l } made
  /-- The page is read, and the lookup looks again. -/
  | turned {t n : Nat} {token : Option String} {l : Lock} {progress : Progress (Option Export)}
    {made' : Requests} (page : ExportsPage) (h : client.answer (.exports token) n = .ok page)
    (hs : Look (s.turn page) name t made progress made')
    (hl : Passage s.lock (.fetching t n token) progress.phase? l) :
    Step s client name made (.fetching t n token) progress { s.turn page with lock := l } made'
  /-- The request fails. -/
  | refused {t n : Nat} {token : Option String} {l : Lock} (message : String)
    (h : client.answer (.exports token) n = .error message)
    (hl : Passage s.lock (.fetching t n token) none l) :
    Step s client name made (.fetching t n token) (.failed message) { s with lock := l } made

/-- What a lookup does that has the lock: it keeps the lock only to fetch. -/
theorem lookOrFetch_look {s s' : ExportScan} {name : String} {t : Nat} {made made' : Requests}
    {progress : Progress (Option Export)}
    (h : s.lookOrFetch name t made = (progress, s', made')) :
    Look s name t made progress made' ∧
      s' = { s with lock := if progress.phase?.isSome then s.lock else s.lock.leave t } := by
  unfold lookOrFetch at h
  split at h
  · next e he =>
    obtain ⟨rfl, rfl, rfl⟩ := h
    exact ⟨.found e he, rfl⟩
  · next he =>
    split at h
    · next hc =>
      obtain ⟨rfl, rfl, rfl⟩ := h
      exact ⟨.missing he hc, rfl⟩
    · next token hc =>
      obtain ⟨rfl, rfl, rfl⟩ := h
      exact ⟨.asks token he hc, rfl⟩

/-- What a look does to the lock that a reader has got. -/
theorem Look.passage {s : ExportScan} {name : String} {p : Phase} {l : Lock} {made made' : Requests}
    {progress : Progress (Option Export)} (hs : Look s name (p.letIn l).1 made progress made')
    (hp : p.isFetching = true ∨ (p.letIn l).2.heldBy (p.letIn l).1 = true) :
    Passage l p progress.phase?
      (if progress.phase?.isSome then (p.letIn l).2 else (p.letIn l).2.leave (p.letIn l).1) := by
  cases hs with
  | found e h => exact .leave p
  | missing h hc => exact .leave p
  | asks token h hc => exact .fetch p _ _ hp

/-- A look does not depend on the lock. -/
theorem Look.of_lock {s : ExportScan} {name : String} {t : Nat} {l : Lock} {made made' : Requests}
    {progress : Progress (Option Export)}
    (hs : Look { s with lock := l } name t made progress made') :
    Look s name t made progress made' := by
  cases hs with
  | found e h => exact .found e h
  | missing h hc => exact .missing h hc
  | asks token h hc => exact .asks token h hc

/-- A reader with its ticket in hand. -/
theorem lookOrWait_step {s s' : ExportScan} {client : Client} {name : String} {p : Phase}
    {made made' : Requests} {progress : Progress (Option Export)} (hp : p.isFetching = false)
    (h : lookOrWait { s with lock := (p.letIn s.lock).2 } name (p.letIn s.lock).1 made
      = (progress, s', made')) : Step s client name made p progress s' made' := by
  unfold lookOrWait at h
  split at h
  · next hheld =>
    obtain ⟨hs, rfl⟩ := lookOrFetch_look h
    exact .looks _ hp hs.of_lock (hs.passage (Or.inr hheld))
  · obtain ⟨rfl, rfl, rfl⟩ := h
    exact .waits _ hp (.wait p hp)

/-- **Every step of a lookup is in the list.** -/
theorem advance_step {s s' : ExportScan} {client : Client} {name : String} {p : Phase}
    {made made' : Requests} {progress : Progress (Option Export)}
    (h : s.advance client name p made = (progress, s', made')) :
    Step s client name made p progress s' made' := by
  cases p with
  | fetching t n token =>
    simp only [advance] at h
    split at h
    · next page hpage =>
      obtain ⟨hs, rfl⟩ := lookOrFetch_look h
      exact .turned page hpage hs (hs.passage (p := .fetching t n token) (Or.inl rfl))
    · next message hm =>
      obtain ⟨rfl, rfl, rfl⟩ := h
      exact .refused message hm (.leave _)
  | waiting t => exact lookOrWait_step rfl h
  | arriving => exact lookOrWait_step rfl h

namespace Step

variable {s s' : ExportScan} {client : Client} {name : String} {made made' : Requests} {p : Phase}
  {progress : Progress (Option Export)}

/-- What a step does to the lock. -/
theorem passage (h : Step s client name made p progress s' made') :
    Passage s.lock p progress.phase? s'.lock := by
  cases h with
  | looks t hp hs hl => exact hl
  | waits t hp hl => exact hl
  | turned page h hs hl => exact hl
  | refused message h hl => exact hl

/-- Whoever is answered has looked among all exports seen; without a match no page is left. -/
theorem found_of_ready {found : Option Export}
    (h : Step s client name made p (.ready found) s' made') :
    s'.found.get? name = found ∧ (found = none → s'.cursor = .exhausted) := by
  cases h with
  | looks t hp hs hl =>
    cases hs with
    | found e h => exact ⟨h, by simp⟩
    | missing h hc => exact ⟨h, fun _ => hc⟩
  | turned page h hs hl =>
    cases hs with
    | found e h => exact ⟨h, by simp⟩
    | missing h hc => exact ⟨h, fun _ => hc⟩

/-- A request for exports is for the page at the cursor. -/
theorem cursor_of_fetching {t n : Nat} {token : Option String}
    (h : Step s client name made p (.suspended (.fetching t n token)) s' made') :
    s'.cursor = .page token := by
  cases h with
  | looks t hp hs hl => cases hs with | asks token h hc => exact hc
  | turned page h hs hl => cases hs with | asks token h hc => exact hc

end Step

end StackExpr.ExportScan
