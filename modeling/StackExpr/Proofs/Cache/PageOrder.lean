import StackExpr.Proofs.Traffic
/-!
# The order in which pages of exports are read

A scan reads the pages of exports one after the other, whoever asks for them. `ScanAt` says where it
stands: after `k` answered requests it knows the named exports of the first `k` pages, and the
cursor is behind them.

**The traffic at the caches of a stack keeps to it** (`Caches.Traffic.scanAt`), so no page is left
out and none is read twice. What makes this work is that the lookup that waits for a page holds the
lock: the cursor is still where it was when the page was asked for.
-/

namespace StackExpr

namespace Cloud

/-- The named exports of the first `k` pages, by name: a name that comes again takes its last
export. -/
def exportsThrough (c : Cloud) (k : Nat) : Dict Export :=
  .ofEntries ((c.exportPages.take k).flatten.filterMap fun e => e.name.map fun name => (name, e))

/-- The number of requests that it takes to read all pages. Even if there are none, that has to be
found out. -/
def scanLength (c : Cloud) : Nat := max c.exportPages.length 1

/-- The cursor after `k` pages. -/
def cursorAfter (c : Cloud) (k : Nat) : Cursor :=
  if k = 0 then .page none
  else if k < c.exportPages.length then .page (some (Decimal.toText k))
  else .exhausted

theorem scanLength_lt (c : Cloud) : c.scanLength < UInt64.size :=
  Nat.max_lt.mpr ⟨c.pages_lt, by decide⟩

theorem lt_scanLength_of_cursorAfter {c : Cloud} {k : Nat} {token : Option String}
    (h : c.cursorAfter k = .page token) : k < c.scanLength := by
  unfold cursorAfter at h
  unfold scanLength
  split at h
  · omega
  · split at h
    · omega
    · cases h

theorem cursorAfter_eq_start {c : Cloud} {k : Nat} : c.cursorAfter k = .page none ↔ k = 0 := by
  unfold cursorAfter
  split
  · next h => simp [h]
  · next h => split <;> simp [h]

theorem cursorAfter_eq_page {c : Cloud} {k : Nat} :
    c.cursorAfter k = .page (some (Decimal.toText k)) ↔ 0 < k ∧ k < c.exportPages.length := by
  unfold cursorAfter
  split
  · next h => simp [h]
  · next h =>
    have hk : 0 < k := Nat.pos_of_ne_zero h
    split <;> simp [*]

theorem cursorAfter_eq_exhausted {c : Cloud} {k : Nat} (hk : k ≤ c.scanLength) :
    c.cursorAfter k = .exhausted ↔ k = c.scanLength := by
  unfold scanLength at hk ⊢
  unfold cursorAfter
  split
  · next h => simp only [reduceCtorEq, false_iff]; omega
  · split
    · simp only [reduceCtorEq, false_iff]; omega
    · simp only [true_iff]; omega

/-- As long as there is a page to read, the cursor asks for one. -/
theorem exists_token {c : Cloud} {k : Nat} (h : k < c.scanLength) :
    ∃ token, c.cursorAfter k = .page token := by
  cases hc : c.cursorAfter k with
  | page token => exact ⟨token, rfl⟩
  | exhausted => exact absurd ((cursorAfter_eq_exhausted h.le).mp hc) h.ne

/-- The cursor after `k` pages asks for page `k`. -/
theorem answer_cursorAfter {c : Cloud} {k : Nat} {token : Option String}
    (h : c.cursorAfter k = .page token) : c.answer (.exports token) = .ok (c.page k) := by
  have hk : k < UInt64.size := Nat.lt_trans (lt_scanLength_of_cursorAfter h) c.scanLength_lt
  unfold cursorAfter at h
  split at h
  · next h0 =>
    obtain rfl := Cursor.page.inj h
    rw [h0]
    rfl
  · split at h
    · obtain rfl := Cursor.page.inj h
      simp only [answer, Decimal.toText, String.toList_ofList, Decimal.word64?_digits hk]
    · cases h

/-- Behind page `k` the cursor is behind `k + 1` pages. -/
theorem cursor_behind_page {c : Cloud} {k : Nat} (h : k < c.scanLength) :
    Cursor.behind (c.page k) = c.cursorAfter (k + 1) := by
  have hk : (k + 1) % UInt64.size = k + 1 := Nat.mod_eq_of_lt (by have := c.scanLength_lt; omega)
  simp only [Cursor.behind, page, hk, cursorAfter, Nat.succ_ne_zero, if_false]
  split
  · next token ht =>
    split at ht
    · next hlt => rw [if_pos hlt, Option.some.inj ht]
    · cases ht
  · next ht =>
    split at ht
    · cases ht
    · next hlt => rw [if_neg hlt]

/-- Remembering page `k` gives the exports of `k + 1` pages. -/
theorem remember_page (c : Cloud) (k : Nat) :
    rememberExports (c.exportsThrough k) (c.page k).exports = c.exportsThrough (k + 1) := by
  have hpages : (c.exportPages.take (k + 1)).flatten
      = (c.exportPages.take k).flatten ++ (c.page k).exports := by
    rw [List.take_add_one, List.flatten_append]
    cases hp : c.exportPages[k]? <;> simp [page, hp]
  simp only [exportsThrough, hpages, List.filterMap_append, rememberExports, Dict.ofEntries,
    Dict.insertAll, List.foldl_append]

end Cloud

/-! ## Where a scan stands -/

/-- Where a scan stands after `k` answered requests, with these readers at its lock. -/
structure ScanAt (cloud : Cloud) (phases : Multiset Phase) (s : ExportScan) (k : Nat) : Prop where
  bound : k ≤ cloud.scanLength
  found : s.found = cloud.exportsThrough k
  cursor : s.cursor = cloud.cursorAfter k
  /-- Whoever waits for a page waits for the one at the cursor. -/
  token : ∀ t n token, Phase.fetching t n token ∈ phases → s.cursor = .page token

/-! ## Answers in a log -/

/-- How many requests of a kind, made at caches with a number, were answered. -/
def answerCount (id : Nat) (kind : RequestKind) (log : List Event) : Nat :=
  log.countP (Event.answers id kind)

theorem answerCount_append (id : Nat) (kind : RequestKind) (log events : List Event) :
    answerCount id kind (log ++ events) = answerCount id kind log + answerCount id kind events :=
  List.countP_append

namespace Caches

variable {c : Caches} {client : Client} {id : Nat} {q : Query} {p : Phase}
  {progress : Progress q.Answer} {kind : RequestKind}

theorem answerCount_reaction : answerCount id kind (c.reaction id q progress) = 0 := by
  unfold reaction
  split <;> simp [answerCount, Event.answers]

/-- At most one request is answered when a reader goes on. -/
theorem answerCount_events_le : answerCount id kind (c.events client id q p progress) ≤ 1 := by
  rw [events, answerCount_append, answerCount_reaction, Nat.add_zero]
  refine Nat.le_trans List.countP_le_length ?_
  unfold outcome
  split
  · split <;> exact Nat.le_refl 1
  · exact Nat.zero_le 1

/-- A reader that waits for no answer gets none. -/
theorem answerCount_events_of_not_fetching (hp : p.isFetching = false) :
    answerCount id kind (c.events client id q p progress) = 0 := by
  rw [events_of_not_fetching hp, answerCount_reaction]

/-- A reader that asks for one thing gets no answer about another. -/
theorem answerCount_events_of_ne (hk : q.kind ≠ kind) :
    answerCount id kind (c.events client id q p progress) = 0 := by
  refine List.countP_eq_zero.mpr fun e he => ?_
  rw [Event.answers_of_kind_ne (by rwa [kind_of_mem_events e he])]
  simp

theorem answerCount_events_of_ok {t n : Nat} {token : Option String}
    {a : (c.request token q).Response} (hk : q.kind = kind)
    (ha : client.answer (c.request token q) n = .ok a) :
    answerCount id kind (c.events client id q (.fetching t n token) progress) = 1 := by
  have hr : answerCount id kind (c.reaction id q progress) = 0 := answerCount_reaction
  rw [answerCount] at hr
  simp [events_of_ok ha, answerCount, hr, Event.answers, request_kind, hk]

theorem answerCount_events_of_error {t n : Nat} {token : Option String} {message : String}
    (ha : client.answer (c.request token q) n = .error message) :
    answerCount id kind (c.events client id q (.fetching t n token) progress) = 0 := by
  have hr : answerCount id kind (c.reaction id q progress) = 0 := answerCount_reaction
  rw [answerCount] at hr
  simp [events_of_error ha, answerCount, hr, Event.answers]

end Caches

/-! ## Steps -/

namespace ScanAt

variable {cloud : Cloud} {phases : Multiset Phase} {s : ExportScan} {k : Nat}

/-- The answer to a request for exports turns the page at the cursor. -/
theorem turn {client : Client} {t n : Nat} {token : Option String} {page : ExportsPage}
    (h : ScanAt client.cloud (.fetching t n token ::ₘ phases) s k)
    (ha : client.answer (.exports token) n = .ok page) :
    k + 1 ≤ client.cloud.scanLength ∧ (s.turn page).found = client.cloud.exportsThrough (k + 1) ∧
      (s.turn page).cursor = client.cloud.cursorAfter (k + 1) := by
  -- The request was made with the token of the cursor, and the cursor has stayed where it was.
  have hcursor : client.cloud.cursorAfter k = .page token :=
    h.cursor.symm.trans (h.token t n token (Multiset.mem_cons_self _ _))
  have hlt := Cloud.lt_scanLength_of_cursorAfter hcursor
  have hpage : page = client.cloud.page k := by
    unfold Client.answer at ha
    split at ha
    · cases ha
    · rw [Cloud.answer_cursorAfter hcursor] at ha
      exact (Except.ok.inj ha).symm
  refine ⟨hlt, ?_, ?_⟩
  · rw [ExportScan.turn, hpage, h.found, Cloud.remember_page]
  · rw [ExportScan.turn, hpage, Cloud.cursor_behind_page hlt]

/-- Readers that come or go without having read a page leave the scan where it stands. -/
theorem of_phases {phases' : Multiset Phase} {s' : ExportScan} (h : ScanAt cloud phases s k)
    (hfound : s'.found = s.found) (hcursor : s'.cursor = s.cursor)
    (hp : ∀ t n token, Phase.fetching t n token ∈ phases' → s.cursor = .page token) :
    ScanAt cloud phases' s' k where
  bound := h.bound
  found := hfound.trans h.found
  cursor := hcursor.trans h.cursor
  token := fun t n token hm => hcursor.trans (hp t n token hm)

/-- **A step of a lookup turns one page if it is answered, and none otherwise.** -/
theorem step {client : Client} {name : String} {p : Phase} {made made' : Requests}
    {progress : Progress (Option Export)} {s' : ExportScan}
    (h : ScanAt client.cloud (p ::ₘ phases) s k) (hg : Guarded (p ::ₘ phases) s.lock)
    (hs : s.Step client name made p progress s' made') (c : Caches) (id : Nat) :
    ScanAt client.cloud (progress.phase?.elim 0 singleton + phases) s'
      (k + answerCount id .exports (c.events client id (.exportNamed name) p progress)) := by
  -- Whoever goes on waiting for a page asks for the one at the cursor.
  have hmem : ∀ t n token, Phase.fetching t n token ∈ progress.phase?.elim 0 singleton + phases →
      s'.cursor = .page token ∨ Phase.fetching t n token ∈ phases := by
    intro t n token hm
    rcases Multiset.mem_add.mp hm with hm | hm
    · cases progress with
      | ready a => simp [Progress.phase?] at hm
      | failed message => simp [Progress.phase?] at hm
      | suspended q =>
        simp only [Progress.phase?, Option.elim_some, Multiset.mem_singleton] at hm
        subst hm
        exact Or.inl hs.cursor_of_fetching
    · exact Or.inr hm
  have hothers : ∀ t n token, Phase.fetching t n token ∈ phases → s.cursor = .page token :=
    fun t n token hm => h.token t n token (Multiset.mem_cons_of_mem hm)
  cases hs with
  | looks t hp hlook hl =>
    rw [Caches.answerCount_events_of_not_fetching hp]
    exact h.of_phases rfl rfl fun t n token hm =>
      (hmem t n token hm).elim (fun hc => hc) (hothers t n token)
  | waits t hp hl =>
    rw [Caches.answerCount_events_of_not_fetching hp]
    exact h.of_phases rfl rfl fun t n token hm =>
      (hmem t n token hm).elim (fun hc => hc) (hothers t n token)
  | @turned t n token l progress made' page ha hlook hl =>
    have hcount : answerCount id .exports (c.events client id (.exportNamed name)
        (.fetching t n token) progress) = 1 := Caches.answerCount_events_of_ok rfl ha
    rw [hcount]
    obtain ⟨hbound, hfound, hcursor⟩ := h.turn ha
    refine ⟨hbound, hfound, hcursor, fun t n token hm =>
      (hmem t n token hm).elim (fun hc => hc) fun hm => ?_⟩
    -- Nobody else waits for a page.
    exact absurd (hg.fetching_unique rfl _ hm) (by simp [Phase.isFetching])
  | @refused t n token l message ha hl =>
    have hcount : answerCount id .exports (c.events client id (.exportNamed name)
        (.fetching t n token) (.failed message)) = 0 := Caches.answerCount_events_of_error ha
    rw [hcount]
    exact h.of_phases rfl rfl fun t n token hm =>
      (hmem t n token hm).elim (fun hc => hc) (hothers t n token)

end ScanAt

theorem Caches.exports_release (c : Caches) (p : Phase) (q : Query) :
    (c.release p q).exports.found = c.exports.found ∧
      (c.release p q).exports.cursor = c.exports.cursor := by
  cases q <;> exact ⟨rfl, rfl⟩

/-- **After `k` answers the scan stands behind `k` pages**, whatever the readers do. -/
theorem Caches.Traffic.scanAt {client : Client} {id : Nat} {log : List Event}
    {readers : Multiset Reader} {c : Caches} (h : c.Traffic client id log readers) :
    ScanAt client.cloud (phasesAt readers .exports) c.exports (answerCount id .exports log) := by
  induction h with
  | opened stack region =>
    exact ⟨Nat.zero_le _, rfl, rfl, fun t n token hm => absurd hm (Multiset.notMem_zero _)⟩
  | @arrived log readers c q h ih =>
    -- Whoever arrives waits for no page yet.
    refine ih.of_phases rfl rfl fun t n token hm => ih.token t n token ?_
    exact (phase_of_mem_cons hm).resolve_left (by simp)
  | @advanced log readers c c' r progress made made' hs h ih =>
    have hg := h.guarded .exports
    rw [answerCount_append]
    obtain ⟨i, q, p⟩ := r
    -- Only a lookup of an export moves the scan, and only its answers count.
    cases hs with
    | inventory hs =>
      rw [answerCount_events_of_ne (by simp [Query.kind]), Nat.add_zero,
        phasesAt_after_of_ne _ (by simp [Query.kind])]
      rwa [phasesAt_cons_of_ne (by simp [Query.kind])] at ih
    | urlSuffix hs =>
      rw [answerCount_events_of_ne (by simp [Query.kind]), Nat.add_zero,
        phasesAt_after_of_ne _ (by simp [Query.kind])]
      rwa [phasesAt_cons_of_ne (by simp [Query.kind])] at ih
    | @exportNamed name progress scan made' hs =>
      have hcons := phasesAt_cons_self readers (⟨i, .exportNamed name, p⟩ : Reader)
      have hafter := phasesAt_after readers (⟨i, .exportNamed name, p⟩ : Reader) progress
      simp only [Query.kind] at hcons hafter
      rw [hcons] at ih hg
      rw [hafter]
      exact ih.step hg hs c id
  | @left log readers c r h ih =>
    have hscan := c.exports_release r.phase r.query
    refine ih.of_phases hscan.1 hscan.2 fun t n token hm => ih.token t n token ?_
    exact Multiset.mem_of_le (phasesAt_le_cons readers r .exports) hm

/-! ## Runs -/

theorem answerCount_logAt (id : Nat) (kind : RequestKind) (log : List Event) :
    answerCount id kind (logAt log id) = answerCount id kind log := by
  rw [answerCount, answerCount, logAt, List.countP_filter]
  refine List.countP_congr fun e _ => ?_
  cases e with
  | answered i r n a =>
    simp only [Event.answers, Event.caches, Bool.and_eq_true, beq_iff_eq]
    exact ⟨fun h => h.1, fun h => ⟨h, decide_eq_true h.1⟩⟩
  | _ => simp [Event.answers]

/-- A request that fails teaches nothing about exports. -/
theorem Caches.Step.exports_of_failed {c c' : Caches} {client : Client} {made made' : Requests}
    {p : Phase} {q : Query} {message : String}
    (h : c.Step client made p q (.failed message) c' made') :
    c'.exports.found = c.exports.found ∧ c'.exports.cursor = c.exports.cursor := by
  cases h with
  | inventory h => exact ⟨rfl, rfl⟩
  | urlSuffix h => exact ⟨rfl, rfl⟩
  | exportNamed h =>
    cases h with
    | looks t hp hs hl => cases hs
    | turned page h hs hl => cases hs
    | refused _ h hl => exact ⟨rfl, rfl⟩

/-- **Pages are read in order, none is left out and none is read twice.** In every state that can
come about, the exports that are known are those of the first `k` pages and the cursor is behind
them, where `k` is the number of requests for exports that were answered. Whoever goes on reads one
page if it is answered and none otherwise; whoever fails or is called off changes nothing. -/
theorem Traffic.exports_in_order {client : Client} {log : List Event} {readers : Multiset Reader}
    {s : Session} {id : Nat} {c : Caches} (h : Traffic client log readers s)
    (hc : s.caches[id]? = some c) :
    let n := client.cloud.exportPages.length
    let k := answerCount id .exports log
    k ≤ max n 1 ∧ c.exports.found = client.cloud.exportsThrough k ∧
      (c.exports.cursor = .page none ↔ k = 0) ∧
      (c.exports.cursor = .page (some (Decimal.toText k)) ↔ 0 < k ∧ k < n) ∧
      (c.exports.cursor = .exhausted ↔ k = max n 1) ∧
      ∀ r ∈ readers, r.caches = id →
        (∀ progress c' made, c.advance client r.phase s.requests r.query = (progress, c', made) →
          let k' := k + answerCount id .exports (c.events client id r.query r.phase progress)
          k' ≤ k + 1 ∧ c'.exports.found = client.cloud.exportsThrough k' ∧
            c'.exports.cursor = client.cloud.cursorAfter k' ∧
            ∀ message, progress = .failed message →
              c'.exports.found = c.exports.found ∧ c'.exports.cursor = c.exports.cursor) ∧
        (c.release r.phase r.query).exports.found = c.exports.found ∧
        (c.release r.phase r.query).exports.cursor = c.exports.cursor := by
  intro n k
  have ht := h.toCaches hc
  have hs := ht.scanAt
  rw [answerCount_logAt] at hs
  have hk : k ≤ max n 1 := hs.bound
  have hcursor : c.exports.cursor = client.cloud.cursorAfter k := hs.cursor
  refine ⟨hk, hs.found, ?_, ?_, ?_, fun r hr hid => ⟨fun progress c' made ha => ?_, ?_⟩⟩
  · rw [hcursor, Cloud.cursorAfter_eq_start]
  · rw [hcursor, Cloud.cursorAfter_eq_page]
  · rw [hcursor, Cloud.cursorAfter_eq_exhausted hk]
    exact Iff.rfl
  · subst hid
    obtain ⟨others, rfl⟩ := Multiset.exists_cons_of_mem hr
    have hs' := ((Traffic.advanced hc ha h).toCaches
      (List.getElem?_set_self (List.getElem?_eq_some_iff.mp hc).1)).scanAt
    rw [answerCount_logAt, answerCount_append] at hs'
    refine ⟨Nat.add_le_add_left Caches.answerCount_events_le k, hs'.found, hs'.cursor, ?_⟩
    rintro message rfl
    exact (Caches.advance_step ha).exports_of_failed
  · exact c.exports_release r.phase r.query

/-- A cloud whose exports come in two pages, the first without a name. -/
def Cloud.twoPages : Cloud := { exportPages := [[⟨none, some "a"⟩], [⟨some "B", some "b"⟩]] }

/-- A lookup that has read the first of two pages, and waits for the second. -/
theorem exports_in_order_of_lookup : ∃ log readers s c,
    Traffic ⟨Cloud.twoPages, .none⟩ log readers s ∧ s.caches[0]? = some c ∧
      answerCount 0 .exports log = 1 ∧ c.exports.found = Cloud.twoPages.exportsThrough 1 := by
  let c (found : Dict Export) (cursor : Cursor) : Caches :=
    { stack := "stack", region := "region", exports := ⟨found, cursor, (Lock.enter {}).2⟩ }
  let s : Session := ⟨{ exports := 2 }, [c [] (.page (some (Decimal.toText 1)))]⟩
  have h₀ : Traffic ⟨Cloud.twoPages, .none⟩ [] (⟨0, .exportNamed "B", .arriving⟩ ::ₘ 0) _ :=
    .arrived 0 (.exportNamed "B") (.opened "stack" "region" .quiet)
  have h₁ : Traffic ⟨Cloud.twoPages, .none⟩ [.asked 0 (.exports none) 1]
      (⟨0, .exportNamed "B", .fetching 0 1 none⟩ ::ₘ 0)
      ⟨{ exports := 1 }, [c [] (.page none)]⟩ :=
    (Traffic.advanced (c := { stack := "stack", region := "region" }) rfl rfl h₀ :)
  have h₂ : Traffic ⟨Cloud.twoPages, .none⟩ [.asked 0 (.exports none) 1,
      .answered 0 (.exports none) 1 (Cloud.twoPages.page 0),
      .asked 0 (.exports (some (Decimal.toText 1))) 2]
      (⟨0, .exportNamed "B", .fetching 0 2 (some (Decimal.toText 1))⟩ ::ₘ 0)
      s := (Traffic.advanced (c := c [] (.page none)) rfl rfl h₁ :)
  have hc : s.caches[0]? = some (c [] (.page (some (Decimal.toText 1)))) := rfl
  exact ⟨_, _, s, _, h₂, hc, rfl, (Traffic.exports_in_order h₂ hc).2.1⟩

end StackExpr
