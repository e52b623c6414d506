import StackExpr.Proofs.PageNeeds
import StackExpr.Proofs.Since
/-!
# Lookups read the pages they need

While a lookup waits for its turn others may read pages for themselves. From then on nobody else
reads any until the lookup has ended, because it holds the lock; so all that matters is how many
pages were read when it had its turn. `Looking` says how far a lookup can be, and what it has done.

* `Looking.step`: **a step of the lookup keeps to it**, and so does whatever may happen since it has
  begun (`Since.looking`)
* `Traffic.quiet_of_missing`: **when a name was not found, no page is asked for any more**
* `Run.pages_needed`: **a lookup reads exactly the pages it needs**
-/

namespace StackExpr

open Job

/-! ## After the last page -/

namespace Caches

variable {c : Caches} {client : Client} {id : Nat} {log before after : List Event}
  {readers : Multiset Reader}

/-- A request for exports is for the page behind those that were read. -/
theorem Traffic.asked_of_pages {token : Option String} {n : Nat}
    (h : c.Traffic client id log readers)
    (hlog : log = before ++ .asked id (.exports token) n :: after) :
    client.cloud.cursorAfter (answerCount id .exports before) = .page token := by
  induction h generalizing after with
  | opened stack region => simp at hlog
  | arrived q h ih => exact ih hlog
  | @advanced log readers c c' r progress made made' hs h ih =>
    obtain ⟨i, q, p⟩ := r
    rcases append_events_of_reaction rfl hlog with ⟨after', hlog⟩ | ⟨rfl, hr⟩
    · exact ih hlog
    · have hscan := (Traffic.advanced hs h).scanAt
      rw [events, ← List.append_assoc, answerCount_append _ _ (log ++ _), answerCount_reaction,
        Nat.add_zero] at hscan
      rw [← hscan.cursor]
      unfold reaction at hr
      split at hr
      · cases hr
      · cases hs with
        | inventory hs => cases hr
        | urlSuffix hs => cases hr
        | exportNamed hs =>
          obtain ⟨ha, rfl⟩ := List.cons.inj hr
          cases ha
          exact hs.cursor_of_fetching
      · cases hr
  | left h ih => exact ih hlog

end Caches

/-- **When a name was not found, no page is asked for any more**, for whatever name. -/
theorem Traffic.quiet_of_missing {client : Client} {log before after : List Event}
    {readers : Multiset Reader} {s : Session} {id : Nat} {name : String}
    (h : Traffic client log readers s)
    (hlog : log = before ++ .read id (.exportNamed name) none :: after) :
    ∀ e ∈ after, e.asks id .exports = false := by
  intro e he
  obtain ⟨passed, rest, rfl⟩ := List.append_of_mem he
  cases e with
  | asked i r n =>
    by_contra hasks
    have hasks : i = id ∧ r.kind = .exports := by simpa [Event.asks] using hasks
    obtain ⟨rfl, hkind⟩ := hasks
    obtain ⟨token, rfl⟩ : ∃ token, r = .exports token := by
      cases r with
      | exports token => exact ⟨token, rfl⟩
      | stackResources stack => cases hkind
      | urlSuffix region => cases hkind
    -- All pages had been read, so there was none to ask for.
    have hall := (h.read_of_pages hlog).2.2 rfl
    have hmem : .asked i (.exports token) n ∈ log := by simp [hlog]
    obtain ⟨c, hc⟩ : ∃ c, s.caches[i]? = some c := h.opened_of_mem hmem
    have hat : logAt log i = logAt (before ++ .read i (.exportNamed name) none :: passed) i
        ++ .asked i (.exports token) n :: logAt rest i := by
      simp [hlog, logAt, Event.caches]
    have hcursor := (h.toCaches hc).asked_of_pages hat
    rw [answerCount_logAt, answerCount_append, hall] at hcursor
    have hlt := Cloud.lt_scanLength_of_cursorAfter hcursor
    omega
  | _ => rfl

/-! ## A lookup on its way -/

/-- The request that is made, if one is. -/
def Event.request? : Event → Option Request
  | asked _ r _ => some r
  | _ => none

/-- What a lookup has done that found `k` pages read: it has asked for the pages up to `last` and
has read them up to `m`, and has looked in vain before each request. -/
structure Browsed (cloud : Cloud) (id : Nat) (name : String) (k m last : Nat) (own : List Event) :
    Prop where
  le : k ≤ m
  requests : own.filterMap Event.request? = Cloud.requestsFor k last
  answers : answerCount id .exports own = m - k
  vain : ∀ i, k ≤ i → i < last → (cloud.exportsThrough i).get? name = none

/-- How far a lookup can be that has begun when `k₀` pages were read, now that `pages` are. -/
inductive Looking (client : Client) (id : Nat) (name : String) (k₀ pages : Nat) :
    Progress (Option Export) → List Event → Prop where
  /-- It has not had its turn. -/
  | waits {p : Phase} (hp : p.isFetching = false) (hk : k₀ ≤ pages) :
    Looking client id name k₀ pages (.suspended p) []
  /-- It waits for a page. -/
  | fetches {k m t n : Nat} {token : Option String} {own : List Event} (hk : k₀ ≤ k)
    (hb : Browsed client.cloud id name k m (m + 1) own)
    (ht : client.cloud.cursorAfter m = .page token) (ha : .asked id (.exports token) n ∈ own) :
    Looking client id name k₀ pages (.suspended (.fetching t n token)) own
  /-- It has its answer. -/
  | ended {k m : Nat} {found : Option Export} {own : List Event} (hk : k₀ ≤ k)
    (hb : Browsed client.cloud id name k m m own) (hm : m ≤ pages)
    (hs : m ≤ client.cloud.scanLength) (hf : found = (client.cloud.exportsThrough m).get? name)
    (hn : found = none → m = client.cloud.scanLength) :
    Looking client id name k₀ pages (.ready found) own
  /-- A request of its own was made to fail. -/
  | failed {message : String} {own : List Event} (token : Option String) (n : Nat)
    (ha : .asked id (.exports token) n ∈ own) (hf : client.faults.hits .exports n = true) :
    Looking client id name k₀ pages (.failed message) own

namespace Browsed

variable {cloud : Cloud} {id k m : Nat} {name : String} {own : List Event}

/-- A lookup that has its turn has not read anything yet. -/
theorem begun (cloud : Cloud) (id : Nat) (name : String) (k : Nat) :
    Browsed cloud id name k k k [] where
  le := Nat.le_refl k
  requests := (Cloud.requestsFor_self k).symm
  answers := (Nat.sub_self k).symm
  vain := fun _ hk hi => absurd (hk.trans_lt hi) (Nat.lt_irrefl k)

/-- It asks for a page where it has looked in vain. -/
theorem asked (h : Browsed cloud id name k m m own)
    (hvain : (cloud.exportsThrough m).get? name = none) (n : Nat) :
    Browsed cloud id name k m (m + 1) (own ++ [.asked id (.exports (Cloud.pageToken m)) n]) where
  le := h.le
  requests := by
    rw [List.filterMap_append, h.requests, Cloud.requestsFor_succ h.le]
    rfl
  answers := by
    rw [answerCount_append, h.answers]
    rfl
  vain := by
    intro i hk hi
    rcases Nat.lt_succ_iff_lt_or_eq.mp hi with hi | rfl
    · exact h.vain i hk hi
    · exact hvain

/-- It reads the page. -/
theorem read (h : Browsed cloud id name k m (m + 1) own) (r : Request) (n : Nat)
    (a : r.Response) (hr : r.kind = .exports) :
    Browsed cloud id name k (m + 1) (m + 1) (own ++ [.answered id r n a]) where
  le := h.le.trans (Nat.le_succ m)
  requests := by
    rw [List.filterMap_append, h.requests]
    exact List.append_nil _
  answers := by
    have hone : answerCount id .exports [.answered id r n a] = 1 := by
      simp [answerCount, Event.answers, hr]
    have := h.le
    rw [answerCount_append, h.answers, hone]
    omega
  vain := h.vain

/-- It leaves with its answer. -/
theorem left (h : Browsed cloud id name k m m own) (q : Query) (a : q.Answer) :
    Browsed cloud id name k m m (own ++ [.read id q a]) where
  le := h.le
  requests := by
    rw [List.filterMap_append, h.requests]
    exact List.append_nil _
  answers := by
    rw [answerCount_append, h.answers]
    rfl
  vain := h.vain

end Browsed

namespace Looking

variable {client : Client} {id k₀ pages : Nat} {name : String} {progress : Progress (Option Export)}
  {own : List Event}

/-- Others may have read pages. -/
theorem mono {pages' : Nat} (hle : pages ≤ pages')
    (h : Looking client id name k₀ pages progress own) :
    Looking client id name k₀ pages' progress own := by
  cases h with
  | waits hp hk => exact .waits hp (hk.trans hle)
  | fetches hk hb ht ha => exact .fetches hk hb ht ha
  | ended hk hb hm hs hf hn => exact .ended hk hb (hm.trans hle) hs hf hn
  | failed token n ha hf => exact .failed token n ha hf

/-- A look at the scan where it stands. -/
theorem look {k m t : Nat} {s : ExportScan} {made made' : Requests} (hk : k₀ ≤ k)
    (hb : Browsed client.cloud id name k m m own) (hm : m ≤ client.cloud.scanLength)
    (hpages : m ≤ pages) (hfound : s.found = client.cloud.exportsThrough m)
    (hcursor : s.cursor = client.cloud.cursorAfter m)
    (hs : s.Look name t made progress made') (c : Caches) : Looking client id name k₀ pages progress
      (own ++ c.reaction id (.exportNamed name) progress) := by
  cases hs with
  | found e h =>
    rw [hfound] at h
    exact .ended hk (hb.left _ _) hpages hm h.symm (fun hn => nomatch hn)
  | missing h hc =>
    rw [hfound] at h
    exact .ended hk (hb.left _ _) hpages hm h.symm fun _ =>
      (Cloud.cursorAfter_eq_exhausted hm).mp (hcursor.symm.trans hc)
  | asks token h hc =>
    have ht := hcursor.symm.trans hc
    obtain rfl := Cloud.token_of_cursorAfter ht
    exact .fetches hk (hb.asked (hfound ▸ h) _) ht
      (List.mem_append_right _ (List.mem_singleton.mpr rfl))

/-- **A step of the lookup keeps to it.** -/
theorem step {c : Caches} {p : Phase} {phases : Multiset Phase} {scan : ExportScan}
    {made made' : Requests} (h : Looking client id name k₀ pages (.suspended p) own)
    (hscan : ScanAt client.cloud (p ::ₘ phases) c.exports pages)
    (hs : c.exports.Step client name made p progress scan made') :
    let events := c.events client id (.exportNamed name) p progress
    Looking client id name k₀ (pages + answerCount id .exports events) progress
      (own ++ events) := by
  intro events
  cases hs with
  | looks t hp hlook hl =>
    cases h with
    | waits _ hk =>
      have hevents : events = c.reaction id (.exportNamed name) progress :=
        Caches.events_of_not_fetching hp
      rw [hevents, Caches.answerCount_reaction, Nat.add_zero]
      exact look hk (.begun _ _ _ _) hscan.bound le_rfl hscan.found hscan.cursor hlook c
    | fetches => cases hp
  | waits t hp hl =>
    cases h with
    | waits _ hk =>
      have hevents : events = [] := Caches.events_of_not_fetching hp
      rw [hevents]
      exact .waits rfl hk
    | fetches => cases hp
  | @turned t n token l progress made' page ha hlook hl =>
    cases h with
    | waits hp hk => cases hp
    | @fetches k m _ _ _ _ hk hb ht hasked =>
      -- The cursor is where it was when the lookup asked for the page.
      obtain rfl : m = pages := Cloud.pageToken_inj ((Cloud.token_of_cursorAfter ht).symm.trans
        (Cloud.token_of_cursorAfter (hscan.cursor.symm.trans
          (hscan.token t n token (Multiset.mem_cons_self _ _)))))
      have hcount : answerCount id .exports events = 1 := Caches.answerCount_events_of_ok rfl ha
      have hevents : events = [.answered id (.exports token) n page]
          ++ c.reaction id (.exportNamed name) progress := Caches.events_of_ok ha
      obtain ⟨hbound, hfound, hcursor⟩ := hscan.turn ha
      rw [hcount, hevents, ← List.append_assoc]
      exact look hk (hb.read (.exports token) n page rfl) hbound le_rfl hfound hcursor hlook c
  | @refused t n token l message ha hl =>
    cases h with
    | waits hp hk => cases hp
    | @fetches k m _ _ _ _ hk hb ht hasked =>
      refine .failed token n (List.mem_append_left _ hasked) ?_
      unfold Client.answer at ha
      split at ha
      · next hhits => exact hhits
      · rw [Cloud.answer_cursorAfter ht] at ha
        cases ha

/-- A lookup that has its answer has made the requests that it needs. -/
theorem needs {found : Option Export} (h : Looking client id name k₀ pages (.ready found) own) :
    ∃ k m, k₀ ≤ k ∧ k + answerCount id .exports own ≤ pages ∧
      own.filterMap Event.request? = Cloud.requestsFor k m ∧
      client.cloud.Needs name k (own.filterMap Event.request?) found := by
  cases h with
  | @ended k m _ _ hk hb hm hs hf hn =>
    have hread : k + answerCount id .exports own = m := by
      rw [hb.answers, Nat.add_sub_cancel' hb.le]
    exact ⟨k, m, hk, hread.trans_le hm, hb.requests, .of_vain hb.le hs hb.requests hb.vain hf hn⟩

end Looking

/-- The job of a lookup that has come this far. -/
def Progress.lookup (id : Nat) (name : String) : Progress (Option Export) → Job (Option Export)
  | ready found => .done (.ok found)
  | failed message => .done (.error (.client message))
  | suspended p => .ask id (.exportNamed name) p fun found => pure found

/-- **A move of the lookup keeps to it.** -/
theorem Looking.moved {client : Client} {id k₀ : Nat} {name : String} {log own events : List Event}
    {others : Multiset Task} {s s' : Session} {progress : Progress (Option Export)}
    {job : Job (Option Export)}
    (h : Run client log
      (⟨.query id (.exportNamed name), progress.lookup id name, own⟩ ::ₘ others) s)
    (hl : Looking client id name k₀ (answerCount id .exports log) progress own)
    (hm : (progress.lookup id name).Move client s events job s') :
    ∃ progress', job = progress'.lookup id name ∧
      Looking client id name k₀ (answerCount id .exports (log ++ events)) progress'
        (own ++ events) := by
  cases progress with
  | ready found => cases hm
  | failed message => cases hm
  | suspended p =>
    obtain ⟨progress', hadv, rfl, rfl⟩ : ∃ progress' : Progress (Option Export),
        s.advance client id p (.exportNamed name) = (progress', s') ∧
        events = s.events client id (.exportNamed name) p progress' ∧
        job = progress'.lookup id name := by
      cases hm with
      | answered ha => exact ⟨_, ha, rfl, rfl⟩
      | refused ha => exact ⟨_, ha, rfl, rfl⟩
      | suspended ha => exact ⟨_, ha, rfl, rfl⟩
    refine ⟨progress', rfl, ?_⟩
    rcases Session.advance_cases hadv with ⟨c, c', made, hc, ha, -, he⟩ | ⟨-, rfl, -, he⟩
    · have hscan := (h.traffic.1.toCaches hc).scanAt
      let reader : Reader := ⟨id, .exportNamed name, p⟩
      have hreaders : readersIn (⟨.query id (.exportNamed name),
          Progress.lookup id name (.suspended p), own⟩ ::ₘ others)
            = reader ::ₘ readersIn others := Multiset.cons_bind _ _ _
      have hphases : phasesAt (reader ::ₘ readersAt (readersIn others) id) .exports
          = p ::ₘ phasesAt (readersAt (readersIn others) id) .exports := phasesAt_cons_self _ reader
      rw [hreaders, readersAt_cons_self _ reader, hphases, answerCount_logAt] at hscan
      rw [he, answerCount_append]
      cases Caches.advance_step ha with
      | exportNamed hs => exact hl.step hscan hs
    · rw [he, List.append_nil, List.append_nil]
      exact hl

section Lookups

variable {client : Client} {id : Nat} {name : String} {log₀ log own : List Event}
  {others₀ others : Multiset Task} {s₀ s : Session}

/-- **A lookup keeps to it, whatever happens.** -/
theorem Since.looking
    {job : Job (Operation.query id (.exportNamed name)).Answer} (h₀ : Run client log₀ others₀ s₀)
    (h : Since client (.query id (.exportNamed name)) log₀ others₀ s₀ log job own others s) :
    ∃ progress, job = Progress.lookup id name progress ∧
      Looking client id name (answerCount id .exports log₀) (answerCount id .exports log) progress
        own := by
  induction h with
  | begun => exact ⟨.suspended .arriving, rfl, .waits rfl le_rfl⟩
  | moved hm h ih =>
    obtain ⟨progress, rfl, hl⟩ := ih
    exact hl.moved (h.run h₀) hm
  | joined op' _ ih => exact ih
  | passed hm _ ih =>
    obtain ⟨progress, hjob, hl⟩ := ih
    rw [answerCount_append]
    exact ⟨progress, hjob, hl.mono (Nat.le_add_right _ _)⟩
  | left _ ih => exact ih

/-! ## Lookups that have ended -/

/-- Of the requests that were made those of a kind are counted. -/
theorem Event.countP_asksFor (kind : RequestKind) (log : List Event) :
    log.countP (Event.asksFor kind)
      = (log.filterMap Event.request?).countP fun r => r.kind == kind := by
  rw [List.countP_filterMap]
  refine List.countP_congr fun e _ => ?_
  cases e <;> simp [Event.asksFor, Event.request?]

theorem Cloud.countP_requestsFor (k m : Nat) :
    (Cloud.requestsFor k m).countP (fun r => r.kind == .exports)
      = (Cloud.requestsFor k m).length := by
  refine List.countP_eq_length.mpr fun r hr => ?_
  obtain ⟨i, -, rfl⟩ := List.mem_map.mp hr
  rfl

/-- What an operation needs whose requests do not fail, with whatever company. -/
theorem Since.needs {r : Except Failure (Option Export)} (h₀ : Run client log₀ others₀ s₀)
    (h : Since client (.query id (.exportNamed name)) log₀ others₀ s₀ log (.done r) own others s)
    (hown : ∀ request n, .asked id request n ∈ own → client.faults.hits .exports n = false) :
    ∃ k m found, r = .ok found ∧ answerCount id .exports log₀ ≤ k ∧
      k + answerCount id .exports own ≤ answerCount id .exports log ∧
      own.filterMap Event.request? = Cloud.requestsFor k m ∧
      client.cloud.Needs name k (own.filterMap Event.request?) found := by
  obtain ⟨progress, hjob, hl⟩ := h.looking h₀
  cases progress with
  | ready found =>
    obtain ⟨k, m, hk, hread, hrequests, hneeds⟩ := hl.needs
    exact ⟨k, m, found, Job.done.inj hjob, hk, hread, hrequests, hneeds⟩
  | failed message =>
    cases hl with
    | failed token n ha hf =>
      rw [hown _ n ha] at hf
      cases hf
  | suspended p => cases hjob

/-- What a lookup needs that goes on in rounds, alone. -/
theorem Run.exists_rounds_needs (h : Run client log₀ others₀ s₀) (hid : id < s₀.caches.length)
    (hopen : ∀ t ∈ others₀, t.op.Open s₀) (hends : ∀ t ∈ others₀, t.Ended) (name : String) :
    ∃ n, ∀ m ≥ n, ∃ r own s',
      Job.rounds client m [Job.query id (.exportNamed name)] s₀ = ([.done r], s') ∧
      Moves client (Job.query id (.exportNamed name)) s₀ own (.done r) s' ∧
      ((∀ request n, .asked id request n ∈ own → client.faults.hits .exports n = false) →
        ∃ found, r = .ok found ∧
          client.cloud.Needs name (answerCount id .exports log₀)
            (own.filterMap Event.request?) found ∧
          s'.requests.exports
            = s₀.requests.exports + (own.filterMap Event.request?).length) := by
  let op : Operation := .query id (.exportNamed name)
  let request : (op : Operation) × (op.Answer → Option Export) := ⟨op, fun found => found⟩
  have hrequest : ∀ r ∈ [request], r.1.Open s₀ := by
    intro r hr i hi
    obtain rfl := List.mem_singleton.mp hr
    exact Option.some.inj hi ▸ hid
  obtain ⟨n, hn⟩ := h.exists_rounds_begun hopen hends hrequest
  refine ⟨n, fun m hm => ?_⟩
  obtain ⟨es', s', hrounds, -, -, hend⟩ := hn m hm
  obtain ⟨job, own, s'', hrounds', hmoves⟩ :=
    exists_rounds_moves client m (Job.query id (.exportNamed name)) s₀
  obtain ⟨hjobs, rfl⟩ := Prod.mk.inj (hrounds.symm.trans hrounds')
  obtain ⟨e, rfl, rfl⟩ := List.map_eq_singleton_iff.mp hjobs
  obtain ⟨r, hr⟩ := Option.isSome_iff_exists.mp
    (Caller.ended_iff.mp (hend e (List.mem_singleton_self e)))
  rw [result?_eq_some.mp hr] at hrounds' hmoves
  refine ⟨r, own, s', hrounds', hmoves, fun hown => ?_⟩
  have hsince : Since client op log₀ others₀ s₀ (log₀ ++ own) (.done r) own others₀ s' :=
    Since.begun.moves hmoves
  obtain ⟨k, m, found, hfound, hk, hread, hrequests, hneeds⟩ := hsince.needs h hown
  -- Nobody else has read a page, so the lookup has found those that were read when it began.
  obtain rfl : k = answerCount id .exports log₀ := by
    rw [answerCount_append] at hread
    omega
  refine ⟨found, hfound, hneeds, ?_⟩
  have hcount := (hsince.run h).traffic.1.count_requests .exports
  rw [List.countP_append, ← h.traffic.1.count_requests, Event.countP_asksFor, hrequests,
    Cloud.countP_requestsFor, ← hrequests] at hcount
  exact hcount

/-- **A lookup reads exactly the pages it needs.** Let `k₀` pages have been read when it begins.

* Whatever others do in between, when it has ended and no request of its own has failed, it has
  answered and has needed what one needs that finds `k` pages read: those that were read before its
  turn. Together with those that it has read itself they are no more than were read at all, so they
  are the `k₀` pages if nobody else has read any.
* It comes to its end, in whatever order it and the others go on as long as something can.
* In rounds, alone, it comes to its end as well, and finds the `k₀` pages read.
* When a lookup has not found its name, no page is asked for any more.

The requests of `Cloud.requestsFor` are answered with the pages that they are for. -/
theorem Run.pages_needed (h : Run client log₀ others₀ s₀) (id : Nat) (name : String) :
    let k₀ := answerCount id .exports log₀
    (∀ log r own others s,
      Since client (.query id (.exportNamed name)) log₀ others₀ s₀ log (.done r) own others s →
      (∀ request n, .asked id request n ∈ own → client.faults.hits .exports n = false) →
      ∃ k found, r = .ok found ∧ k₀ ≤ k ∧
        k + answerCount id .exports own ≤ answerCount id .exports log ∧
        client.cloud.Needs name k (own.filterMap Event.request?) found) ∧
    (id < s₀.caches.length → (∀ t ∈ others₀, t.op.Open s₀) →
      ∀ state : Nat → Multiset Task × Session,
      state 0 = (⟨.query id (.exportNamed name), Job.query id (.exportNamed name), []⟩ ::ₘ others₀,
        s₀) →
      (∀ n, Advances client (state n) (state (n + 1)) ∨ ∀ x, ¬ Advances client (state n) x) →
      ∃ n log r own others,
        (state n).1 = ⟨.query id (.exportNamed name), .done r, own⟩ ::ₘ others ∧
        Since client (.query id (.exportNamed name)) log₀ others₀ s₀ log (.done r) own others
          (state n).2) ∧
    (id < s₀.caches.length → (∀ t ∈ others₀, t.op.Open s₀) → (∀ t ∈ others₀, t.Ended) →
      ∃ n, ∀ m ≥ n, ∃ r own s',
        Job.rounds client m [Job.query id (.exportNamed name)] s₀ = ([.done r], s') ∧
        Moves client (Job.query id (.exportNamed name)) s₀ own (.done r) s' ∧
        ((∀ request n, .asked id request n ∈ own → client.faults.hits .exports n = false) →
          ∃ found, r = .ok found ∧
            client.cloud.Needs name k₀ (own.filterMap Event.request?) found ∧
            s'.requests.exports
              = s₀.requests.exports + (own.filterMap Event.request?).length)) ∧
    (∀ log tasks s before after, Run client log tasks s →
      log = before ++ .read id (.exportNamed name) none :: after →
      ∀ e ∈ after, e.asks id .exports = false) ∧
    ∀ i < client.cloud.scanLength,
      client.cloud.answer (.exports (Cloud.pageToken i)) = .ok (client.cloud.page i) := by
  have hop : id < s₀.caches.length → (Operation.query id (.exportNamed name)).Open s₀ :=
    fun hid _ hi => Option.some.inj hi ▸ hid
  refine ⟨fun log r own others s hsince hown => ?_,
    fun hid hopen state hstart hstate => Since.exists_end h (hop hid) hopen hstart hstate,
    fun hid hopen hends => h.exists_rounds_needs hid hopen hends name,
    fun log tasks s before after h' hlog => h'.traffic.1.quiet_of_missing hlog,
    fun i hi => Cloud.answer_pageToken hi⟩
  obtain ⟨k, m, found, hr, hk, hread, -, hneeds⟩ := hsince.needs h hown
  exact ⟨k, found, hr, hk, hread, hneeds⟩

end Lookups

/-- A lookup that has to read both pages, and has the export on the second. -/
theorem pages_needed_of_twoPages :
    let client : Client := ⟨Cloud.twoPages, .none⟩
    let s : Session := ⟨{}, [{ stack := "stack", region := "region" }]⟩
    ∃ n, ∀ m ≥ n, ∃ (own : List Event) (s' : Session),
      Job.rounds client m [Job.query 0 (.exportNamed "B")] s
        = ([.done (.ok (some ⟨some "B", some "b"⟩))], s') ∧
      own.filterMap Event.request? = [.exports none, .exports (some (Decimal.toText 1))] ∧
      s'.requests.exports = 2 := by
  intro client s
  have hidle := Task.first_idle [] s
  obtain ⟨n, hn⟩ := (Run.pages_needed (Run.first client []) 0 "B").2.2.1 Nat.one_pos
    (fun t ht => (hidle t ht).1) (fun t ht => (hidle t ht).2)
  refine ⟨n, fun m hm => ?_⟩
  obtain ⟨r, own, s', hrounds, -, hneeds⟩ := hn m hm
  obtain ⟨found, rfl, hneeds, hcount⟩ := hneeds fun _ _ _ => rfl
  -- The first page has no export with a name.
  have hcarries : Cloud.twoPages.Carries "B" 1 :=
    ⟨_, rfl, ⟨some "B", some "b"⟩, List.mem_singleton_self _, rfl⟩
  have hfirst : ∀ i < 1, ¬ Cloud.twoPages.Carries "B" i := by
    rintro i hi ⟨page, hpage, e, he, hname⟩
    obtain rfl : i = 0 := Nat.lt_one_iff.mp hi
    obtain rfl := Option.some.inj hpage
    rw [List.mem_singleton.mp he] at hname
    cases hname
  obtain ⟨hrequests, rfl⟩ := hneeds.ahead 1 (Nat.zero_le 1) hcarries hfirst
  rw [hrequests] at hcount
  exact ⟨own, s', hrounds, hrequests, hcount⟩

end StackExpr
