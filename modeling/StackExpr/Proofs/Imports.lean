import StackExpr.Proofs.Answers
import StackExpr.Proofs.Evaluators
/-!
# Imports that are repeated

A lookup answers with the last export of the name on the pages read so far
(`Traffic.read_of_pages`). Pages that are read later, for whatever name, may have another export of
the name. So **an import that is repeated has the same value as long as no page that is read in
between has an export of the name** (`Run.imports_stable`), and everywhere and at all times if all
exports of the name are on one page. A name that comes again on a later page changes its value when
that page is read (`imports_not_stable`).

While nobody else looks up an export, a lookup is answered at once if its name was seen
(`Run.answered_seen`), and after one request if it is on the next page (`Run.answered_turned`).
-/

namespace StackExpr

open Job

/-! ## Pages with an export of a name -/

namespace Dict

theorem get?_insertAll_of_notMem {α : Type} {entries : List (String × α)} {key : String}
    (h : key ∉ entries.map Prod.fst) (d : Dict α) :
    (d.insertAll entries).get? key = d.get? key := by
  induction entries generalizing d with
  | nil => rfl
  | cons e entries ih =>
    obtain ⟨hne, hentries⟩ := not_or.mp (List.mem_cons.not.mp h)
    refine (ih hentries (d.insert e.1 e.2)).trans ?_
    rw [get?_insert, if_neg (Ne.symm hne)]

end Dict

namespace Cloud

variable {c : Cloud} {name : String} {k k' : Nat}

/-- The page with an index has an export of a name. -/
def Carries (c : Cloud) (name : String) (i : Nat) : Prop :=
  ∃ page, c.exportPages[i]? = some page ∧ ∃ e ∈ page, e.name = some name

/-- A page without an export of the name teaches nothing about it. -/
theorem get?_exportsThrough_succ (h : ¬ c.Carries name k) :
    (c.exportsThrough (k + 1)).get? name = (c.exportsThrough k).get? name := by
  rw [← remember_page, rememberExports]
  refine Dict.get?_insertAll_of_notMem (fun hmem => h ?_) _
  obtain ⟨entry, hentry, rfl⟩ := List.mem_map.mp hmem
  obtain ⟨e, he, hentry⟩ := List.mem_filterMap.mp hentry
  obtain ⟨name, hn, rfl⟩ := Option.map_eq_some_iff.mp hentry
  cases hp : c.exportPages[k]? with
  | none => simp [page, hp] at he
  | some exports => exact ⟨exports, hp, e, by simpa [page, hp] using he, hn⟩

theorem get?_exportsThrough_of_le (hk : k ≤ k')
    (h : ∀ i, k ≤ i → i < k' → ¬ c.Carries name i) :
    (c.exportsThrough k').get? name = (c.exportsThrough k).get? name := by
  induction k', hk using Nat.le_induction with
  | base => rfl
  | succ k' hk ih =>
    rw [get?_exportsThrough_succ (h k' hk (Nat.lt_succ_self k'))]
    exact ih fun i hi hlt => h i hi (Nat.lt_succ_of_lt hlt)

/-- An export that was found is on a page that was read. -/
theorem exists_carries_of_found {e : Export} (h : (c.exportsThrough k).get? name = some e) :
    ∃ i < k, c.Carries name i := by
  by_contra hnone
  rw [get?_exportsThrough_of_le (Nat.zero_le k) fun i _ hi hc => hnone ⟨i, hi, hc⟩] at h
  cases h

/-- Where a page brings a name that was not seen, there is a page to read. -/
theorem lt_scanLength_of_found {e : Export} (hvain : (c.exportsThrough k).get? name = none)
    (h : (c.exportsThrough (k + 1)).get? name = some e) : k < c.scanLength := by
  obtain ⟨page, hpage, -⟩ : c.Carries name k := by
    by_contra hnot
    rw [get?_exportsThrough_succ hnot, hvain] at h
    cases h
  exact Nat.lt_of_lt_of_le (List.getElem?_eq_some_iff.mp hpage).1 (Nat.le_max_left _ _)

/-- All exports of the name are on one page. -/
def OnOnePage (c : Cloud) (name : String) : Prop :=
  ∀ i j, c.Carries name i → c.Carries name j → i = j

/-- What is found of a name on one page is found when all pages are read. -/
theorem OnOnePage.get?_exportsThrough (h : c.OnOnePage name) {e : Export} (hk : k ≤ k')
    (hf : (c.exportsThrough k).get? name = some e) :
    (c.exportsThrough k').get? name = some e := by
  obtain ⟨i, hi, hcarries⟩ := exists_carries_of_found hf
  rw [get?_exportsThrough_of_le hk fun j hj _ hc => ?_, hf]
  have hij := h i j hcarries hc
  omega

end Cloud

/-! ## Answers to lookups -/

namespace Caches

variable {c : Caches} {client : Client} {id i : Nat} {q q₀ : Query} {p : Phase}
  {progress : Progress q₀.Answer} {a : q.Answer} {log before after : List Event}

/-- Whatever happens when a reader goes on and is no reply is the last thing to happen then. -/
theorem append_events_of_reaction {e : Event} (he : e.isReply = false)
    (h : log ++ c.events client id q₀ p progress = before ++ e :: after) :
    (∃ after', log = before ++ e :: after') ∨
      before = log ++ c.outcome client id q₀ p ∧ c.reaction id q₀ progress = e :: after := by
  have houtcome : e ∉ c.outcome client id q₀ p := fun hmem => by
    rw [isReply_of_mem_outcome e hmem] at he
    cases he
  have hreaction : ∀ passed, c.reaction id q₀ progress = passed ++ e :: after → passed = [] := by
    intro passed hr
    unfold reaction at hr
    split at hr
    · cases passed <;> simp_all
    · cases passed <;> simp_all
    · cases passed <;> simp at hr
  rw [events, ← List.append_assoc] at h
  rcases List.append_eq_append_iff.mp h with ⟨passed, rfl, hr⟩ | ⟨rest, hlog, hr⟩
  · obtain rfl := hreaction passed hr
    exact Or.inr ⟨List.append_nil _, hr⟩
  · rcases List.cons_eq_append_iff.mp hr with ⟨rfl, hr⟩ | ⟨rest', rfl, hr⟩
    · exact Or.inr ⟨by rw [hlog, List.append_nil], hr.symm⟩
    · rcases List.append_eq_append_iff.mp hlog with ⟨passed, rfl, ho⟩ | ⟨rest, rfl, hr⟩
      · exact absurd (ho ▸ List.mem_append_right _ List.mem_cons_self) houtcome
      · rcases List.cons_eq_append_iff.mp hr with ⟨-, ho⟩ | ⟨after', rfl, -⟩
        · exact absurd (ho ▸ List.mem_cons_self) houtcome
        · exact Or.inl ⟨after', rfl⟩

/-- An answer that is read is the last thing to happen when a reader goes on. -/
theorem append_events_eq
    (h : log ++ c.events client id q₀ p progress = before ++ .read i q a :: after) :
    (∃ after', log = before ++ .read i q a :: after') ∨
      before = log ++ c.outcome client id q₀ p ∧
        ∃ a₀, progress = .ready a₀ ∧ Event.read i q a = .read id q₀ a₀ := by
  refine (append_events_of_reaction rfl h).imp_right fun hr => ⟨hr.1, ?_⟩
  have hmem : .read i q a ∈ c.events client id q₀ p progress :=
    List.mem_append_right _ (hr.2 ▸ List.mem_cons_self)
  exact ready_of_read hmem

/-- **A lookup answers with the last export of the name on the pages read so far**, and there is
none only if all pages were read. -/
theorem Traffic.read_of_pages {readers : Multiset Reader} {name : String} {a : Option Export}
    (h : c.Traffic client id log readers)
    (hlog : log = before ++ .read id (.exportNamed name) a :: after) :
    let k := answerCount id .exports before
    k ≤ client.cloud.scanLength ∧ a = (client.cloud.exportsThrough k).get? name ∧
      (a = none → k = client.cloud.scanLength) := by
  induction h generalizing after with
  | opened stack region => simp at hlog
  | arrived q h ih => exact ih hlog
  | @advanced log readers c c' r progress made made' hs h ih =>
    obtain ⟨i, q, p⟩ := r
    rcases append_events_eq hlog with ⟨after', hlog⟩ | ⟨rfl, a₀, rfl, he⟩
    · exact ih hlog
    · have hscan := (Traffic.advanced hs h).scanAt
      cases he
      have hcount : answerCount id .exports (log ++ c.events client id (.exportNamed name) p
          (.ready a))
          = answerCount id .exports (log ++ c.outcome client id (.exportNamed name) p) := by
        rw [events, ← List.append_assoc, answerCount_append _ _ (log ++ _), answerCount_reaction,
          Nat.add_zero]
      rw [hcount] at hscan
      cases hs with
      | exportNamed hs =>
        obtain ⟨hget, hex⟩ := hs.found_of_ready
        refine ⟨hscan.bound, ?_, fun hnone => ?_⟩
        · rw [← hget, ← hscan.found]
        · rw [← Cloud.cursorAfter_eq_exhausted hscan.bound, ← hscan.cursor]
          exact hex hnone
  | left h ih => exact ih hlog

end Caches

theorem Traffic.read_of_pages {client : Client} {log before after : List Event}
    {readers : Multiset Reader} {s : Session} {id : Nat} {name : String} {a : Option Export}
    (h : Traffic client log readers s)
    (hlog : log = before ++ .read id (.exportNamed name) a :: after) :
    let k := answerCount id .exports before
    k ≤ client.cloud.scanLength ∧ a = (client.cloud.exportsThrough k).get? name ∧
      (a = none → k = client.cloud.scanLength) := by
  have hmem : .read id (.exportNamed name) a ∈ log := by simp [hlog]
  obtain ⟨c, hc⟩ : ∃ c, s.caches[id]? = some c := h.opened_of_mem hmem
  have hat : logAt log id
      = logAt before id ++ .read id (.exportNamed name) a :: logAt after id := by
    simp [hlog, logAt, Event.caches]
  have hread := (h.toCaches hc).read_of_pages hat
  rwa [answerCount_logAt] at hread

/-- A lookup of a name on one page finds what is found when all pages are read. -/
theorem Traffic.read_of_onOnePage {client : Client} {log : List Event} {readers : Multiset Reader}
    {s : Session} {id : Nat} {name : String} {a : Option Export}
    (h : Traffic client log readers s) (hone : client.cloud.OnOnePage name)
    (ha : .read id (.exportNamed name) a ∈ log) :
    a = (client.cloud.exportsThrough client.cloud.scanLength).get? name := by
  obtain ⟨before, after, hlog⟩ := List.append_of_mem ha
  obtain ⟨hk, ha, hnone⟩ := h.read_of_pages hlog
  cases a with
  | none => rw [← hnone rfl, ← ha]
  | some e => rw [hone.get?_exportsThrough hk ha.symm]

/-! ## Imports -/

namespace Evaluator

/-- The expression for an import. -/
def importOf (name : String) : Json := .object [("Fn::ImportValue", .string name)]

/-- What an import comes to when its lookup has been answered. -/
def imported (name : String) : Option Export → Except Failure Json
  | none => .error (.evaluation (.exportNotFound name))
  | some ⟨_, none⟩ => .error (.evaluation (.exportWithoutValue name))
  | some ⟨_, some value⟩ => .ok (.string value)

theorem evaluate_importOf (ev : Evaluator) (name : String) : ev.evaluate (importOf name)
    = .ask ev.caches (.exportNamed name) .arriving fun found => .done (imported name found) := by
  show Job.ask ev.caches (.exportNamed name) .arriving _ = _
  refine congrArg _ (funext fun found => ?_)
  rcases found with _ | ⟨n, _ | value⟩ <;> rfl

end Evaluator

/-- An import of a name on one page comes to what is found when all pages are read. -/
theorem Run.import_of_onOnePage {client : Client} {log own : List Event} {tasks : Multiset Task}
    {s : Session} {ev : Evaluator} {name : String} {r : Except Failure Json}
    (h : Run client log tasks s) (hone : client.cloud.OnOnePage name)
    (ht : ⟨.evaluate ev (Evaluator.importOf name), .done r, own⟩ ∈ tasks)
    (hown : ∀ id r n message, .refused id r n message ∉ own) :
    r = Evaluator.imported name
      ((client.cloud.exportsThrough client.cloud.scanLength).get? name) := by
  have hends : (ev.evaluate (Evaluator.importOf name)).Ensures (s.met own) fun r =>
      r = Evaluator.imported name
        ((client.cloud.exportsThrough client.cloud.scanLength).get? name) := by
    rw [Evaluator.evaluate_importOf]
    refine ⟨fun a ha => ?_, fun message hr => ?_⟩
    · show Evaluator.imported name a = _
      rw [h.traffic.1.read_of_onOnePage hone (h.mem_log ht _ ha)]
    · obtain ⟨r, n, -, hr⟩ := hr
      exact absurd hr (hown _ r n message)
  exact h.canEnd ht _ hends

/-- **A lookup that is repeated has the same answer as long as no page that is read in between has
an export of the name.** If all exports of the name are on one page, then all lookups of it have the
same answer, and all imports of it come to the same as long as no request of theirs fails. -/
theorem Run.imports_stable {client : Client} {log : List Event} {tasks : Multiset Task}
    {s : Session} (h : Run client log tasks s) (name : String) :
    (∀ id a a' before between after, log = before ++ .read id (.exportNamed name) a ::
        (between ++ .read id (.exportNamed name) a' :: after) →
      (∀ i, answerCount id .exports before ≤ i → i < answerCount id .exports (before ++ between) →
        ¬ client.cloud.Carries name i) → a' = a) ∧
    (client.cloud.OnOnePage name →
      (∀ id id' a a', .read id (.exportNamed name) a ∈ log →
        .read id' (.exportNamed name) a' ∈ log → a' = a) ∧
      ∀ ev ev' r r' own own',
        ⟨.evaluate ev (Evaluator.importOf name), .done r, own⟩ ∈ tasks →
        ⟨.evaluate ev' (Evaluator.importOf name), .done r', own'⟩ ∈ tasks →
        (∀ id r n message, .refused id r n message ∉ own) →
        (∀ id r n message, .refused id r n message ∉ own') → r' = r) := by
  have ht := h.traffic.1
  refine ⟨fun id a a' before between after hlog hcarries => ?_, fun hone => ?_⟩
  · obtain ⟨-, ha, -⟩ := ht.read_of_pages hlog
    have hlog' : log = (before ++ .read id (.exportNamed name) a :: between) ++
        .read id (.exportNamed name) a' :: after := by simp [hlog]
    obtain ⟨-, ha', -⟩ := ht.read_of_pages hlog'
    have hcount : answerCount id .exports (before ++ .read id (.exportNamed name) a :: between)
        = answerCount id .exports (before ++ between) := by
      simp [answerCount, Event.answers]
    rw [hcount] at ha'
    rw [ha, ha', Cloud.get?_exportsThrough_of_le _ hcarries]
    rw [answerCount_append]
    exact Nat.le_add_right _ _
  · refine ⟨fun id id' a a' ha ha' => ?_, fun ev ev' r r' own own' htask htask' hown hown' => ?_⟩
    · rw [ht.read_of_onOnePage hone ha, ht.read_of_onOnePage hone ha']
    · rw [h.import_of_onOnePage hone htask hown, h.import_of_onOnePage hone htask' hown']

/-! ## Lookups when nobody else looks up -/

namespace ExportScan

variable {s : ExportScan} {name : String} {t : Nat} {made : Requests}

/-- Whoever comes to a free lock looks at once. -/
theorem advance_arriving (hfree : s.lock.queue = []) (client : Client) :
    s.advance client name .arriving made
      = { s with lock := s.lock.enter.2 }.lookOrFetch name s.lock.enter.1 made := by
  have hheld : s.lock.enter.2.heldBy s.lock.enter.1 = true :=
    Lock.heldBy_enter.mpr (Lock.holder_eq_none_iff.mpr hfree)
  show ({ s with lock := s.lock.enter.2 } : ExportScan).lookOrWait name s.lock.enter.1 made = _
  rw [lookOrWait, if_pos hheld]

theorem lookOrFetch_of_found {e : Export} (h : s.found.get? name = some e) :
    s.lookOrFetch name t made = (.ready (some e), { s with lock := s.lock.leave t }, made) := by
  simp only [lookOrFetch, h]

theorem lookOrFetch_of_page {token : Option String} (h : s.found.get? name = none)
    (hc : s.cursor = .page token) : s.lookOrFetch name t made
      = (.suspended (.fetching t (made.start .exports).1 token), s, (made.start .exports).2) := by
  simp only [lookOrFetch, h, hc]

theorem advance_of_page {client : Client} {n : Nat} {token : Option String} {page : ExportsPage}
    {e : Export} (ha : client.answer (.exports token) n = .ok page)
    (h : (s.turn page).found.get? name = some e) :
    s.advance client name (.fetching t n token) made
      = (.ready (some e), { s.turn page with lock := s.lock.leave t }, made) := by
  simp only [advance, ha]
  exact lookOrFetch_of_found h

end ExportScan

/-- At the caches with a number `k` pages of exports were read, and nobody looks up an export. -/
def Session.HasRead (s : Session) (cloud : Cloud) (id k : Nat) : Prop :=
  ∃ c, s.caches[id]? = some c ∧ c.exports.lock.queue = [] ∧ ScanAt cloud 0 c.exports k

/-- A lookup goes on at the exports of its caches. -/
theorem Session.exists_advance {s : Session} {id : Nat} {c : Caches} {client : Client}
    {p : Phase} {name : String} {progress : Progress (Option Export)} {scan : ExportScan}
    {made : Requests} (hc : s.caches[id]? = some c)
    (h : c.exports.advance client name p s.requests = (progress, scan, made)) :
    ∃ s', s.advance client id p (.exportNamed name) = (progress, s') ∧
      s'.caches[id]? = some { c with exports := scan } ∧
      s.events client id (.exportNamed name) p progress
        = c.events client id (.exportNamed name) p progress := by
  have hset := List.getElem?_set_self (a := { c with exports := scan })
    (List.getElem?_eq_some_iff.mp hc).1
  refine ⟨⟨made, s.caches.set id { c with exports := scan }⟩, ?_, hset, ?_⟩
  · simp only [advance, hc, Caches.advance, h]
  · rw [events, hc]

/-- In caches that were just opened no page was read. -/
theorem Session.HasRead.fresh {s : Session} {id : Nat} {stack region : String}
    (h : s.caches[id]? = some { stack, region }) (cloud : Cloud) : s.HasRead cloud id 0 :=
  ⟨_, h, rfl, Nat.zero_le _, rfl, rfl, fun _ _ _ hm => absurd hm (Multiset.notMem_zero _)⟩

namespace Run

variable {cloud : Cloud} {log : List Event} {tasks : Multiset Task} {s : Session} {id k : Nat}
  {name : String} {e : Export}

/-- **An export that was seen is answered at once.** -/
theorem answered_seen (h : Run ⟨cloud, .none⟩ log tasks s) (hs : s.HasRead cloud id k)
    (op : Operation) {next : Option Export → Job op.Answer}
    (hjob : op.job = .ask id (.exportNamed name) .arriving next)
    (he : (cloud.exportsThrough k).get? name = some e) :
    ∃ s', s'.HasRead cloud id k ∧
      Run ⟨cloud, .none⟩ (log ++ [.read id (.exportNamed name) (some e)])
        (⟨op, next (some e), [.read id (.exportNamed name) (some e)]⟩ ::ₘ tasks) s' := by
  obtain ⟨c, hc, hfree, hat⟩ := hs
  have hlooks : c.exports.advance ⟨cloud, .none⟩ name .arriving s.requests = _ :=
    (ExportScan.advance_arriving hfree _).trans (ExportScan.lookOrFetch_of_found (hat.found ▸ he))
  obtain ⟨s', hadvance, hc', hevents⟩ := Session.exists_advance hc hlooks
  have h' := Run.moved (.answered hadvance) (h.begun_as hjob)
  rw [hevents] at h'
  refine ⟨s', ⟨_, hc', Lock.queue_enter_leave hfree, ?_⟩, h'⟩
  exact hat.of_phases rfl rfl fun _ _ _ hm => absurd hm (Multiset.notMem_zero _)

/-- **An export on the page at the cursor is answered after one request.** -/
theorem answered_turned (h : Run ⟨cloud, .none⟩ log tasks s) (hs : s.HasRead cloud id k)
    (op : Operation) {next : Option Export → Job op.Answer}
    (hjob : op.job = .ask id (.exportNamed name) .arriving next)
    (hvain : (cloud.exportsThrough k).get? name = none)
    (he : (cloud.exportsThrough (k + 1)).get? name = some e) :
    ∃ s' token n, s'.HasRead cloud id (k + 1) ∧
      let own := [.asked id (.exports token) n, .answered id (.exports token) n (cloud.page k),
        .read id (.exportNamed name) (some e)]
      Run ⟨cloud, .none⟩ (log ++ own) (⟨op, next (some e), own⟩ ::ₘ tasks) s' := by
  let client : Client := ⟨cloud, .none⟩
  obtain ⟨c, hc, hfree, hat⟩ := hs
  obtain ⟨token, hcursor⟩ := Cloud.exists_token (Cloud.lt_scanLength_of_found hvain he)
  have hasks : c.exports.advance client name .arriving s.requests = _ :=
    (ExportScan.advance_arriving hfree _).trans
      (ExportScan.lookOrFetch_of_page (hat.found ▸ hvain) (hat.cursor.trans hcursor))
  obtain ⟨s₁, hadvance₁, hc₁, hevents₁⟩ := Session.exists_advance hc hasks
  have h₁ := Run.moved (.suspended hadvance₁) (h.begun_as hjob)
  rw [hevents₁] at h₁
  -- The lookup has the lock, so the cursor is where it was when the page is answered.
  let number := (s.requests.start .exports).1
  have hanswer : client.answer (.exports token) number = .ok (cloud.page k) :=
    Cloud.answer_cursorAfter hcursor
  have hat₁ : ScanAt client.cloud {.fetching c.exports.lock.enter.1 number token}
      { c.exports with lock := c.exports.lock.enter.2 } k :=
    hat.of_phases rfl rfl fun _ _ _ hm => by
      obtain ⟨-, -, rfl⟩ := Phase.fetching.inj (Multiset.mem_singleton.mp hm)
      exact hat.cursor.trans hcursor
  obtain ⟨hbound, hfound, hbehind⟩ := hat₁.turn hanswer
  obtain ⟨s₂, hadvance₂, hc₂, hevents₂⟩ := Session.exists_advance hc₁
    (ExportScan.advance_of_page hanswer (hfound ▸ he))
  have h₂ := Run.moved (.answered hadvance₂) h₁
  rw [hevents₂.trans (Caches.events_of_ok hanswer), List.append_assoc] at h₂
  refine ⟨s₂, token, number, ⟨_, hc₂, Lock.queue_enter_leave hfree, ?_⟩, h₂⟩
  exact ⟨hbound, hfound, hbehind, fun _ _ _ hm => absurd hm (Multiset.notMem_zero _)⟩

end Run

/-! ## A name that is on two pages -/

/-- A cloud with two pages of exports and a name that is on both. -/
def Cloud.repeatedName : Cloud :=
  { exportPages := [[⟨some "A", some "1"⟩], [⟨some "A", some "2"⟩, ⟨some "B", some "b"⟩]] }

/-- Over pages with `A` on the first, and `A` and `B` on the second, `A` may be looked up, then `B`,
then `A` again: whoever looks them up, and at whatever caches where no page was read. -/
theorem Run.exists_again {cloud : Cloud} {log : List Event} {tasks : Multiset Task} {s : Session}
    {id : Nat} (h : Run ⟨cloud, .none⟩ log tasks s) (hs : s.HasRead cloud id 0)
    (hpages : cloud.exportPages = Cloud.repeatedName.exportPages) (opA opB : Operation)
    {nextA : Option Export → Job opA.Answer} {nextB : Option Export → Job opB.Answer}
    (hA : opA.job = .ask id (.exportNamed "A") .arriving nextA)
    (hB : opB.job = .ask id (.exportNamed "B") .arriving nextB) :
    ∃ events ownA ownB ownA' s', s'.HasRead cloud id 2 ∧
      (∀ id r n message, .refused id r n message ∉ events) ∧
      Run ⟨cloud, .none⟩ (log ++ events) (⟨opA, nextA (some ⟨some "A", some "2"⟩), ownA'⟩ ::ₘ
        ⟨opB, nextB (some ⟨some "B", some "b"⟩), ownB⟩ ::ₘ
        ⟨opA, nextA (some ⟨some "A", some "1"⟩), ownA⟩ ::ₘ tasks) s' := by
  have hfound (k : Nat) (name : String) : (cloud.exportsThrough k).get? name
      = (Cloud.repeatedName.exportsThrough k).get? name := by
    rw [Cloud.exportsThrough, Cloud.exportsThrough, hpages]
  obtain ⟨s₁, token, n, hs₁, h₁⟩ := h.answered_turned hs opA hA (hfound 0 "A") (hfound 1 "A")
  obtain ⟨s₂, token', n', hs₂, h₂⟩ := h₁.answered_turned hs₁ opB hB (hfound 1 "B") (hfound 2 "B")
  obtain ⟨s₃, hs₃, h₃⟩ := h₂.answered_seen hs₂ opA hA (hfound 2 "A")
  rw [List.append_assoc, List.append_assoc] at h₃
  exact ⟨_, _, _, _, s₃, hs₃, by simp, h₃⟩

/-- An import in the first stack that has come to a value. -/
def Task.imported (name value : String) (own : List Event) : Task :=
  ⟨.evaluate (.first []) (Evaluator.importOf name), .done (.ok (.string value)), own⟩

/-- Over this cloud, `A` may be imported, then `B`, then both again. -/
theorem Run.exists_imports : ∃ log tasks s ownA ownB ownA' ownB',
    Run ⟨.repeatedName, .none⟩ log tasks s ∧ (∀ id r n message, .refused id r n message ∉ log) ∧
      Task.imported "A" "1" ownA ∈ tasks ∧ Task.imported "B" "b" ownB ∈ tasks ∧
      Task.imported "A" "2" ownA' ∈ tasks ∧ Task.imported "B" "b" ownB' ∈ tasks := by
  let ev : Evaluator := .first []
  obtain ⟨log, ownA, ownB, ownA', s, hs, hrefused, h⟩ :=
    (Run.first ⟨.repeatedName, .none⟩ []).exists_again (.fresh rfl _) rfl
      (.evaluate ev (Evaluator.importOf "A")) (.evaluate ev (Evaluator.importOf "B"))
      (ev.evaluate_importOf "A") (ev.evaluate_importOf "B")
  obtain ⟨s', -, h⟩ := h.answered_seen hs (.evaluate ev (Evaluator.importOf "B"))
    (ev.evaluate_importOf "B") rfl
  have h : Run _ _ (Task.imported "B" "b" _ ::ₘ Task.imported "A" "2" ownA' ::ₘ
    Task.imported "B" "b" ownB ::ₘ Task.imported "A" "1" ownA ::ₘ _) s' := h
  exact ⟨_, _, s', ownA, ownB, ownA', _, h, by simpa using hrefused, by simp, by simp, by simp,
    Multiset.mem_cons_self _ _⟩

/-- A name that is on one page only keeps its value, whatever is imported besides. -/
theorem imports_stable_of_repeatedName : ∃ log tasks s own own' r,
    Run ⟨.repeatedName, .none⟩ log tasks s ∧ Task.imported "B" "b" own ∈ tasks ∧
      ⟨.evaluate (.first []) (Evaluator.importOf "B"), .done r, own'⟩ ∈ tasks ∧
      r = .ok (.string "b") := by
  obtain ⟨log, tasks, s, -, own, -, own', h, hrefused, -, hb, -, hb'⟩ := Run.exists_imports
  have hcarries : ∀ i, Cloud.repeatedName.Carries "B" i → i = 1 := by
    rintro i ⟨page, hpage, e, he, hname⟩
    rcases i with _ | _ | i
    · obtain rfl := Option.some.inj hpage
      obtain rfl := List.mem_singleton.mp he
      simp at hname
    · rfl
    · cases hpage
  have hone : Cloud.repeatedName.OnOnePage "B" := fun i j hi hj =>
    (hcarries i hi).trans (hcarries j hj).symm
  have hown : ∀ t ∈ tasks, ∀ id r n message, .refused id r n message ∉ t.log :=
    fun t ht id r n message hr => hrefused id r n message (h.mem_log ht _ hr)
  exact ⟨log, tasks, s, own, own', _, h, hb, hb',
    ((Run.imports_stable h "B").2 hone).2 _ _ _ _ own own' hb hb' (hown _ hb) (hown _ hb')⟩

/-- A name that comes again on a later page does not: once that page is read, for another name, the
same import has another value, although no request has failed. -/
theorem imports_not_stable : ∃ log tasks s own own', Run ⟨.repeatedName, .none⟩ log tasks s ∧
    (∀ id r n message, .refused id r n message ∉ log) ∧
    Task.imported "A" "1" own ∈ tasks ∧ Task.imported "A" "2" own' ∈ tasks := by
  obtain ⟨log, tasks, s, own, -, own', -, h, hrefused, ha, -, ha', -⟩ := Run.exists_imports
  exact ⟨log, tasks, s, own, own', h, hrefused, ha, ha'⟩

end StackExpr
