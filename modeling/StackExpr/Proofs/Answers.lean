import StackExpr.Proofs.Cache.PageOrder
import StackExpr.Proofs.SingleFlight
/-!
# What readers are told

The caches of a stack stand between those who ask and the cloud. `Cloud.reply` is the answer that
the cloud itself would give to a question, all pages of exports read at once. **Whatever a reader is
told is that answer** (`Traffic.reply_of_read`), as to exports provided that no two have the same
name; and **a request that fails either was made to fail or is for the resources of a stack that is
not there** (`Traffic.refused_cases`).
-/

namespace StackExpr

namespace Cloud

/-- No two exports have the same name. -/
def DistinctExports (c : Cloud) : Prop := (c.exportPages.flatten.filterMap (·.name)).Nodup

/-- The first export of a name on any page. -/
def exportNamed? (c : Cloud) (name : String) : Option Export :=
  c.exportPages.flatten.find? fun e => e.name == some name

/-- The answer to a question about a stack in a region, if there is one. -/
def reply (c : Cloud) (stack region : String) : (q : Query) → Option q.Answer
  | .inventory => c.inventories.get? stack
  | .urlSuffix => some (c.urlSuffix.getD (defaultUrlSuffix region))
  | .exportNamed name => some (c.exportNamed? name)

/-! ## Exports -/

/-- The named exports among exports, each under its name. -/
def named (exports : List Export) : Dict Export :=
  exports.filterMap fun e => e.name.map fun name => (name, e)

theorem keys_named (exports : List Export) :
    (named exports).map Prod.fst = exports.filterMap (·.name) := by
  induction exports with
  | nil => rfl
  | cons e exports ih =>
    rw [named] at ih
    cases hn : e.name <;> simp [named, hn, ih]

theorem get?_named (exports : List Export) (name : String) :
    (named exports).get? name = exports.find? fun e => e.name == some name := by
  induction exports with
  | nil => rfl
  | cons e exports ih =>
    rw [named] at ih
    cases hn : e.name with
    | none => simp [named, hn, ih]
    | some n =>
      by_cases h : n = name
      · simp [named, hn, Dict.get?, h]
      · simp [named, hn, Dict.get?, h, ih]

/-- Distinct names are found on the pages themselves. -/
theorem get?_exportsThrough {c : Cloud} (hd : c.DistinctExports) (k : Nat) (name : String) :
    (c.exportsThrough k).get? name
      = (c.exportPages.take k).flatten.find? fun e => e.name == some name := by
  have hprefix : ((c.exportPages.take k).flatten.filterMap (·.name)).Sublist
      (c.exportPages.flatten.filterMap (·.name)) :=
    ((List.take_sublist k c.exportPages).flatten).filterMap _
  have hdistinct : Dict.Distinct (named (c.exportPages.take k).flatten) := by
    rw [Dict.Distinct, keys_named]
    exact hprefix.nodup hd
  rw [← get?_named]
  exact congrArg (fun d => Dict.get? d name) (Dict.ofEntries_of_distinct hdistinct)

/-- An export that was found is the first of its name. -/
theorem exportNamed?_of_found {c : Cloud} (hd : c.DistinctExports) {k : Nat} {name : String}
    {e : Export} (h : (c.exportsThrough k).get? name = some e) : c.exportNamed? name = some e := by
  rw [get?_exportsThrough hd] at h
  rw [exportNamed?, ← List.take_append_drop k c.exportPages, List.flatten_append, List.find?_append,
    h, Option.some_or]

/-- An export that is not found on all pages is not there. -/
theorem exportNamed?_of_exhausted {c : Cloud} (hd : c.DistinctExports) {name : String}
    (h : (c.exportsThrough c.scanLength).get? name = none) : c.exportNamed? name = none := by
  have hall : c.exportPages.take c.scanLength = c.exportPages :=
    List.take_of_length_le (Nat.le_max_left _ _)
  rwa [get?_exportsThrough hd, hall] at h

end Cloud

/-! ## Truth -/

namespace Caches

/-- What is known, what was read and what was refused agree with the cloud. -/
structure Truthful (client : Client) (id : Nat) (log : List Event) (c : Caches) : Prop where
  known : ∀ q a, q.kind ≠ .exports → c.known q = some a →
    client.cloud.reply c.stack c.region q = some a
  read : ∀ q a, (q.kind = .exports → client.cloud.DistinctExports) → .read id q a ∈ log →
    client.cloud.reply c.stack c.region q = some a
  refused : ∀ r n message, .refused id r n message ∈ log → client.faults.hits r.kind n = true ∨
    (r = .stackResources c.stack ∧ client.cloud.inventories.get? c.stack = none)

section Events

variable {c : Caches} {client : Client} {id i : Nat} {q₀ : Query} {p : Phase}
  {progress : Progress q₀.Answer}

theorem ready_of_read {q : Query} {a : q.Answer}
    (h : .read i q a ∈ c.events client id q₀ p progress) :
    ∃ a₀, progress = .ready a₀ ∧ Event.read i q a = Event.read id q₀ a₀ := by
  rcases List.mem_append.mp h with h | h
  · unfold outcome at h
    split at h
    · split at h <;> cases List.mem_singleton.mp h
    · cases h
  · unfold reaction at h
    split at h
    · exact ⟨_, rfl, List.mem_singleton.mp h⟩
    · cases List.mem_singleton.mp h
    · cases h

theorem fetching_of_refused {r : Request} {n : Nat} {message : String}
    (h : .refused i r n message ∈ c.events client id q₀ p progress) :
    ∃ t token, p = .fetching t n token ∧ r = c.request token q₀ ∧
      client.answer (c.request token q₀) n = .error message := by
  rcases List.mem_append.mp h with h | h
  · cases p with
    | arriving => cases h
    | waiting t => cases h
    | fetching t n' token =>
      simp only [outcome] at h
      split at h
      · cases List.mem_singleton.mp h
      · next m hm =>
        cases List.mem_singleton.mp h
        exact ⟨t, token, rfl, rfl, hm⟩
  · unfold reaction at h
    split at h
    · cases List.mem_singleton.mp h
    · cases List.mem_singleton.mp h
    · cases h

end Events

variable {c c' : Caches} {client : Client} {id : Nat} {log : List Event} {readers : Multiset Reader}

/-- An answer of the client is the cloud's. -/
theorem reply_of_answer {q : Query} {n : Nat} {a : q.Answer} (hq : q.kind ≠ .exports)
    (h : client.answer (c.request none q) n = .ok (c.response q a)) :
    client.cloud.reply c.stack c.region q = some a := by
  unfold Client.answer at h
  split at h
  · cases h
  · cases q with
    | inventory =>
      simp only [request, Cloud.answer] at h
      split at h
      · next rs hrs =>
        obtain rfl := Except.ok.inj h
        exact hrs
      · cases h
    | urlSuffix => exact congrArg some (Except.ok.inj h)
    | exportNamed name => exact absurd rfl hq

/-- Whoever is answered is told what the cloud would reply. -/
theorem Step.reply_of_ready {made made' : Requests} {p : Phase} {q : Query} {a : q.Answer} {k : Nat}
    (hs : c.Step client made p q (.ready a) c' made')
    (hd : q.kind = .exports → client.cloud.DistinctExports)
    (hknown : q.kind ≠ .exports → ∀ a, c.known q = some a →
      client.cloud.reply c.stack c.region q = some a)
    (hfound : c'.exports.found = client.cloud.exportsThrough k)
    (hcursor : c'.exports.cursor = client.cloud.cursorAfter k) (hk : k ≤ client.cloud.scanLength) :
    client.cloud.reply c.stack c.region q = some a := by
  by_cases hq : q.kind = .exports
  · cases hs with
    | inventory h => cases hq
    | urlSuffix h => cases hq
    | exportNamed h =>
      obtain ⟨hget, hex⟩ := h.found_of_ready
      simp only at hfound hcursor
      rw [hfound] at hget
      rw [Cloud.reply]
      have hd := hd rfl
      cases a with
      | some e => rw [Cloud.exportNamed?_of_found hd hget]
      | none =>
        rw [hcursor, Cloud.cursorAfter_eq_exhausted hk] at hex
        rw [hex rfl] at hget
        rw [Cloud.exportNamed?_of_exhausted hd hget]
  · have hl := hs.learns hq 0
    generalize c.events client 0 q p (.ready a) = events at hl
    cases hl with
    | found a hk hk' => exact hknown hq a hk
    | served n a hp hk ha => exact reply_of_answer hq ha

/-- A request that fails was made to fail, or is for the resources of a stack that is not there. -/
theorem refused_of_error {phases : Multiset Phase} {q : Query} {t n k : Nat} {token : Option String}
    {message : String} (hscan : ScanAt client.cloud phases c.exports k)
    (hp : q.kind = .exports → .fetching t n token ∈ phases)
    (h : client.answer (c.request token q) n = .error message) :
    client.faults.hits (c.request token q).kind n = true ∨
      (c.request token q = .stackResources c.stack ∧
        client.cloud.inventories.get? c.stack = none) := by
  unfold Client.answer at h
  split at h
  · next hf => exact Or.inl hf
  · cases q with
    | inventory =>
      simp only [request, Cloud.answer] at h
      split at h
      · cases h
      · next hrs => exact Or.inr ⟨rfl, hrs⟩
    | urlSuffix => cases h
    | exportNamed name =>
      have hcursor := hscan.token t n token (hp rfl)
      rw [hscan.cursor] at hcursor
      rw [request, Cloud.answer_cursorAfter hcursor] at h
      cases h

/-- **What is known, what was read and what was refused agree with the cloud.** -/
theorem Traffic.truthful (h : c.Traffic client id log readers) : Truthful client id log c := by
  induction h with
  | opened stack region =>
    refine ⟨fun q a hq ha => ?_, by simp, by simp⟩
    cases q with
    | inventory => cases ha
    | urlSuffix => cases ha
    | exportNamed name => exact absurd rfl hq
  | arrived q h ih => exact ⟨ih.known, ih.read, ih.refused⟩
  | @advanced log readers c c' r progress made made' hs h ih =>
    obtain ⟨hstack, hregion⟩ := hs.stack_eq
    have hscan := (Traffic.advanced hs h).scanAt
    refine ⟨fun q a hq ha => ?_, fun q a hd ha => ?_, fun r' n m hr => ?_⟩
    · rw [hstack, hregion]
      by_cases hk : r.query.kind = q.kind
      · obtain ⟨i, q', p⟩ := r
        obtain rfl := Query.eq_of_kind hq hk
        have hl := hs.learns hq id
        generalize c.events client id q' p progress = events at hl
        cases hl with
        | found b hb hb' => exact ih.known _ a hq (hb.trans (hb'.symm.trans ha))
        | waits t hb => exact ih.known _ a hq (hb.symm.trans ha)
        | asks t n hb hb' => simp [hb'] at ha
        | served n b hp hb hans =>
          obtain rfl := Option.some.inj (hb.symm.trans ha)
          exact reply_of_answer hq hans
        | refused token n m hb => exact ih.known _ a hq (hb.symm.trans ha)
      · exact ih.known q a hq ((known_of_ne hs hk).symm.trans ha)
    · rw [hstack, hregion]
      rcases List.mem_append.mp ha with ha | ha
      · exact ih.read q a hd ha
      · obtain ⟨a₀, rfl, he⟩ := ready_of_read ha
        cases he
        exact hs.reply_of_ready hd (fun hq a => ih.known _ a hq) hscan.found hscan.cursor
          hscan.bound
    · rw [hstack]
      rcases List.mem_append.mp hr with hr | hr
      · exact ih.refused r' n m hr
      · obtain ⟨t, token, hp, rfl, he⟩ := fetching_of_refused hr
        have hmem := mem_phasesAt (Multiset.mem_cons_self r readers)
        rw [hp] at hmem
        exact refused_of_error h.scanAt (fun hk => hk ▸ hmem) he
  | @left log readers c r h ih =>
    obtain ⟨hstack, hregion⟩ := c.stack_release r.phase r.query
    refine ⟨fun q a hq ha => ?_, fun q a hd ha => ?_, fun r' n m hr => ?_⟩
    · rw [hstack, hregion]
      exact ih.known q a hq ((known_release _ _ _).symm.trans ha)
    · rw [hstack, hregion]
      exact ih.read q a hd ha
    · rw [hstack]
      exact ih.refused r' n m hr

end Caches

namespace Traffic

variable {client : Client} {log : List Event} {readers : Multiset Reader} {s : Session} {id : Nat}

/-- What happens happens at caches that were opened. -/
theorem opened_of_mem (h : Traffic client log readers s) {e : Event} (he : e ∈ log) :
    ∃ c, s.caches[e.caches]? = some c :=
  ⟨_, List.getElem?_eq_getElem (h.log_caches_lt e he)⟩

/-- **Whatever a reader is told is what the cloud would reply.** -/
theorem reply_of_read (h : Traffic client log readers s) {q : Query} {a : q.Answer}
    (hd : q.kind = .exports → client.cloud.DistinctExports) (ha : .read id q a ∈ log) :
    ∃ c, s.caches[id]? = some c ∧ client.cloud.reply c.stack c.region q = some a := by
  obtain ⟨c, hc⟩ := h.opened_of_mem ha
  exact ⟨c, hc, (h.toCaches hc).truthful.read q a hd (mem_logAt.mpr ⟨ha, rfl⟩)⟩

/-- **A request that fails was made to fail, or is for the resources of a stack that is not
there.** -/
theorem refused_cases (h : Traffic client log readers s) {r : Request} {n : Nat}
    {message : String} (hr : .refused id r n message ∈ log) :
    client.faults.hits r.kind n = true ∨
      ∃ c, s.caches[id]? = some c ∧ r = .stackResources c.stack ∧
        client.cloud.inventories.get? c.stack = none := by
  obtain ⟨c, hc⟩ := h.opened_of_mem hr
  exact ((h.toCaches hc).truthful.refused r n message (mem_logAt.mpr ⟨hr, rfl⟩)).imp_right
    fun hn => ⟨c, hc, hn⟩

end Traffic

end StackExpr
