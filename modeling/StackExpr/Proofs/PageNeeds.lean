import StackExpr.Proofs.Imports
/-!
# What a lookup of an export needs

A lookup looks among the pages that were read, and reads further pages one by one until it has found
its name or there are none left. `Cloud.Needs` says which requests it needs that finds `k` pages
read, and what it answers: none if the name is on one of these pages, else those up to the first
page that has it, else all that are left. The answer is the last export of the name on the pages
that were read then (`Cloud.get?_exportsThrough_eq_lastNamed`).

**Whoever looks in vain before each of its requests makes the requests that it needs**
(`Cloud.Needs.of_vain`).
-/

namespace StackExpr

/-! ## The last export of a name -/

namespace Cloud

variable {c : Cloud} {name : String} {k m : Nat}

/-- The last of the exports with a name. -/
def lastNamed (name : String) (exports : List Export) : Option Export :=
  (exports.filter fun e => e.name == some name).getLast?

theorem lastNamed_eq_none_iff {exports : List Export} :
    lastNamed name exports = none ↔ ∀ e ∈ exports, e.name ≠ some name := by
  simp [lastNamed]

/-- Exports without the name in front make no difference. -/
theorem lastNamed_append {exports exports' : List Export} (h : lastNamed name exports = none) :
    lastNamed name (exports ++ exports') = lastNamed name exports' := by
  have hnil : (exports.filter fun e => e.name == some name) = [] :=
    List.filter_eq_nil_iff.mpr fun e he => by simp [lastNamed_eq_none_iff.mp h e he]
  rw [lastNamed, lastNamed, List.filter_append, hnil, List.nil_append]

/-- Of exports with the same name the last one is remembered. -/
theorem get?_ofEntries_named (exports : List Export) :
    (Dict.ofEntries (named exports)).get? name = lastNamed name exports := by
  induction exports using List.reverseRecOn with
  | nil => rfl
  | append_singleton exports e ih =>
    rw [Dict.ofEntries, Dict.insertAll, named] at ih
    rw [named, Dict.ofEntries, Dict.insertAll, List.filterMap_append, List.foldl_append, lastNamed,
      List.filter_append]
    cases hn : e.name with
    | none => simpa [hn, lastNamed] using ih
    | some n =>
      by_cases h : n = name
      · simp [hn, h, Dict.get?_insert]
      · simpa [hn, h, Dict.get?_insert, lastNamed] using ih

/-- A lookup finds the last export of the name on the pages that were read. -/
theorem get?_exportsThrough_eq_lastNamed (c : Cloud) (k : Nat) (name : String) :
    (c.exportsThrough k).get? name = lastNamed name (c.exportPages.take k).flatten :=
  get?_ofEntries_named _

theorem get?_exportsThrough_eq_none_iff :
    (c.exportsThrough k).get? name = none ↔ ∀ i < k, ¬ c.Carries name i := by
  refine ⟨fun h i hi hc => ?_, fun h => ?_⟩
  · obtain ⟨page, hpage, e, he, hn⟩ := hc
    rw [get?_exportsThrough_eq_lastNamed, lastNamed_eq_none_iff] at h
    refine h e (List.mem_flatten.mpr ⟨page, ?_, he⟩) hn
    exact List.mem_of_getElem? ((List.getElem?_take_of_lt hi).trans hpage)
  · rw [Option.eq_none_iff_forall_ne_some]
    intro e he
    obtain ⟨i, hi, hc⟩ := exists_carries_of_found he
    exact h i hi hc

/-- Where no page before has the name, its last export is that of the page. -/
theorem get?_exportsThrough_succ_of_first (h : ∀ i < k, ¬ c.Carries name i) :
    (c.exportsThrough (k + 1)).get? name = lastNamed name (c.page k).exports := by
  rw [← get?_exportsThrough_eq_none_iff, get?_exportsThrough_eq_lastNamed] at h
  rw [get?_exportsThrough_eq_lastNamed, List.take_add_one, List.flatten_append, lastNamed_append h]
  cases hp : c.exportPages[k]? <;> simp [page, hp]

/-! ## Requests for pages -/

/-- The token of a page; the first page has none. -/
def pageToken (i : Nat) : Option String := if i = 0 then none else some (Decimal.toText i)

theorem pageToken_inj {i j : Nat} (h : pageToken i = pageToken j) : i = j := by
  unfold pageToken at h
  split at h <;> split at h
  · omega
  · cases h
  · cases h
  · exact Decimal.toText_inj (Option.some.inj h)

theorem token_of_cursorAfter {token : Option String} (h : c.cursorAfter k = .page token) :
    token = pageToken k := by
  unfold cursorAfter at h
  unfold pageToken
  split at h
  · next hk =>
    rw [if_pos hk]
    exact (Cursor.page.inj h).symm
  · next hk =>
    rw [if_neg hk]
    split at h
    · exact (Cursor.page.inj h).symm
    · cases h

/-- The request with the token of a page is answered with the page. -/
theorem answer_pageToken (h : k < c.scanLength) :
    c.answer (.exports (pageToken k)) = .ok (c.page k) := by
  obtain ⟨token, hc⟩ := exists_token h
  rw [← token_of_cursorAfter hc, answer_cursorAfter hc]

/-- The requests for the pages from one index up to another. -/
def requestsFor (k m : Nat) : List Request :=
  (List.range' k (m - k)).map fun i => .exports (pageToken i)

theorem requestsFor_self (k : Nat) : requestsFor k k = [] := by
  rw [requestsFor, Nat.sub_self]
  rfl

theorem requestsFor_succ (h : k ≤ m) :
    requestsFor k (m + 1) = requestsFor k m ++ [.exports (pageToken m)] := by
  have hsub : m + 1 - k = m - k + 1 := by omega
  rw [requestsFor, requestsFor, hsub, List.range'_1_concat, List.map_append, Nat.add_sub_cancel' h]
  rfl

/-! ## What a lookup needs -/

/-- A lookup that finds `k` pages read needs these requests and answers with this export. -/
structure Needs (c : Cloud) (name : String) (k : Nat) (requests : List Request)
    (found : Option Export) : Prop where
  /-- The name is on a page that was read. -/
  seen : (∃ i < k, c.Carries name i) →
    requests = [] ∧ found = lastNamed name (c.exportPages.take k).flatten
  /-- The first page that has the name was not read. -/
  ahead : ∀ j, k ≤ j → c.Carries name j → (∀ i < j, ¬ c.Carries name i) →
    requests = requestsFor k (j + 1) ∧ found = lastNamed name (c.page j).exports
  /-- No page has the name. -/
  absent : (∀ i, ¬ c.Carries name i) →
    requests = requestsFor k (max c.exportPages.length 1) ∧ found = none

/-- Whoever has looked in vain before each of its requests, and then has found something or read all
pages, has made the requests that it needs. -/
theorem Needs.of_vain {requests : List Request} {found : Option Export} (hk : k ≤ m)
    (hm : m ≤ c.scanLength) (hrequests : requests = requestsFor k m)
    (hvain : ∀ i, k ≤ i → i < m → (c.exportsThrough i).get? name = none)
    (hfound : found = (c.exportsThrough m).get? name)
    (hnone : found = none → m = c.scanLength) : c.Needs name k requests found := by
  -- No page is read after one that has the name.
  have hlast : ∀ j, c.Carries name j → k ≤ j + 1 → m ≤ j + 1 := by
    intro j hj hkj
    by_contra hlt
    exact get?_exportsThrough_eq_none_iff.mp (hvain (j + 1) hkj (by omega)) j (by omega) hj
  refine ⟨fun ⟨i, hi, hc⟩ => ?_, fun j hkj hc hfirst => ?_, fun h => ?_⟩
  · obtain rfl : m = k := by
      by_contra hne
      exact get?_exportsThrough_eq_none_iff.mp (hvain k le_rfl (by omega)) i hi hc
    exact ⟨hrequests.trans (requestsFor_self m),
      hfound.trans (get?_exportsThrough_eq_lastNamed c m name)⟩
  · obtain rfl : m = j + 1 := by
      refine le_antisymm (hlast j hc (by omega)) ?_
      by_contra hlt
      have hnotfound : found = none := hfound.trans
        (get?_exportsThrough_eq_none_iff.mpr fun i hi => hfirst i (by omega))
      have hscan := hnone hnotfound
      obtain ⟨page, hpage, -⟩ := hc
      have hj := (List.getElem?_eq_some_iff.mp hpage).1
      have hle : c.exportPages.length ≤ c.scanLength := Nat.le_max_left _ _
      omega
    exact ⟨hrequests, hfound.trans (get?_exportsThrough_succ_of_first hfirst)⟩
  · have hnotfound : found = none :=
      hfound.trans (get?_exportsThrough_eq_none_iff.mpr fun i _ => h i)
    obtain rfl : m = max c.exportPages.length 1 := hnone hnotfound
    exact ⟨hrequests, hnotfound⟩

end Cloud

end StackExpr
