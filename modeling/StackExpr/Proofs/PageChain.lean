import StackExpr.Cloud
/-!
# Following the pages of exports

Whoever lists exports asks for a page and goes on with the token of the page that came
(`Cloud.Chain`). **From every index but the last of the 64-bit numbers this reads the pages from
that index on, each once and in order, and ends** (`Cloud.pages_chained`): the token of a page
stands for the index that follows, and there is one exactly if that index has a page. Behind all
pages there is one empty page.

Behind the last index comes index 0. A page that is asked for there is empty too, but has the first
page behind it (`Cloud.next_lastIndex`, `pages_not_chained_from_lastIndex`).
-/

namespace StackExpr

namespace Cloud

variable {c : Cloud} {token : Option String} {i : Nat}

/-- The index that a token stands for; without a token the first page is meant. -/
def tokenIndex? : Option String → Option Nat
  | none => some 0
  | some token => Decimal.word64? token.toList

/-- The pages that come if one starts with a token and goes on with the token of each page, down to
the page that has none. -/
inductive Chain (c : Cloud) : Option String → List ExportsPage → Prop where
  | last {token : Option String} {page : ExportsPage}
      (answered : c.answer (.exports token) = .ok page) (ends : page.next = none) :
      Chain c token [page]
  | step {token : Option String} {page : ExportsPage} {next : String} {pages : List ExportsPage}
      (answered : c.answer (.exports token) = .ok page) (goesOn : page.next = some next)
      (following : Chain c (some next) pages) : Chain c token (page :: pages)

/-! ## One page -/

theorem answer_of_tokenIndex (h : tokenIndex? token = some i) :
    c.answer (.exports token) = .ok (c.page i) := by
  cases token with
  | none =>
    obtain rfl : 0 = i := Option.some.inj h
    rfl
  | some token =>
    have hi : Decimal.word64? token.toList = some i := h
    simp only [answer, hi]

theorem tokenIndex_toText (h : i < UInt64.size) :
    tokenIndex? (some (Decimal.toText i)) = some i := by
  simp only [tokenIndex?, Decimal.toText, String.toList_ofList, Decimal.word64?_digits h]

/-- The token of a page stands for the next index, if that has a page. -/
theorem next_page (h : i + 1 < UInt64.size) : (c.page i).next =
    if i + 1 < c.exportPages.length then some (Decimal.toText (i + 1)) else none := by
  simp only [page, Nat.mod_eq_of_lt h]

/-- Behind the last index comes the first one. -/
theorem next_lastIndex (h : c.exportPages ≠ []) :
    c.page (UInt64.size - 1) = ⟨[], some (Decimal.toText 0)⟩ := by
  have hnone : c.exportPages[UInt64.size - 1]? = none :=
    List.getElem?_eq_none_iff.mpr (Nat.le_sub_one_of_lt c.pages_lt)
  have hzero : (UInt64.size - 1 + 1) % UInt64.size = 0 := by decide
  simp only [page, hnone, hzero, Option.getD_none, List.length_pos_iff.mpr h, if_true]

/-! ## All pages behind an index -/

/-- What follows a token is determined. -/
theorem Chain.unique {pages pages' : List ExportsPage} (h : c.Chain token pages)
    (h' : c.Chain token pages') : pages = pages' := by
  induction h generalizing pages' with
  | last ha hn =>
    cases h' with
    | last ha' hn' => rw [Except.ok.inj (ha.symm.trans ha')]
    | step ha' hs' _ =>
      rw [← Except.ok.inj (ha.symm.trans ha'), hn] at hs'
      cases hs'
  | step ha hs _ ih =>
    cases h' with
    | last ha' hn' =>
      rw [← Except.ok.inj (ha.symm.trans ha'), hs] at hn'
      cases hn'
    | step ha' hs' hf' =>
      obtain rfl := Except.ok.inj (ha.symm.trans ha')
      obtain rfl := Option.some.inj (hs.symm.trans hs')
      rw [ih hf']

/-- The pages from an index on, and the empty page if there are none. -/
def pagesBehind (c : Cloud) (i : Nat) : List ExportsPage :=
  (List.range' i (max (c.exportPages.length - i) 1)).map c.page

theorem chain_pagesBehind (ht : tokenIndex? token = some i) (hi : i + 1 < UInt64.size) :
    c.Chain token (c.pagesBehind i) := by
  -- By induction on the number of pages that follow.
  obtain ⟨m, hm⟩ : ∃ m, max (c.exportPages.length - i) 1 = m + 1 :=
    Nat.exists_eq_add_one.mpr (Nat.lt_of_lt_of_le Nat.one_pos (Nat.le_max_right _ _))
  rw [pagesBehind, hm]
  induction m generalizing token i with
  | zero =>
    refine .last (answer_of_tokenIndex ht) ?_
    rw [next_page hi, if_neg (by omega)]
  | succ m ih =>
    have hlt : i + 1 < c.exportPages.length := by omega
    have hi' : i + 1 + 1 < UInt64.size := Nat.lt_of_le_of_lt hlt c.pages_lt
    rw [List.range'_succ, List.map_cons]
    refine .step (answer_of_tokenIndex ht) ?_ (ih (tokenIndex_toText hi) hi' (by omega))
    rw [next_page hi, if_pos hlt]

theorem exports_pagesBehind : (c.pagesBehind i).map (·.exports) =
    if i < c.exportPages.length then c.exportPages.drop i else [[]] := by
  rw [pagesBehind, List.map_map]
  split
  · next hi =>
    refine List.ext_getElem (by simp; omega) fun k hk _ => ?_
    have hik : i + k < c.exportPages.length := by
      simp only [List.length_map, List.length_range'] at hk
      omega
    simp [page, List.getElem?_eq_getElem hik]
  · next hi =>
    have hone : max (c.exportPages.length - i) 1 = 1 := by omega
    have hnone : c.exportPages[i]? = none := List.getElem?_eq_none_iff.mpr (Nat.le_of_not_lt hi)
    simp [hone, page, hnone]

theorem getElem?_pagesBehind {k : Nat} {page : ExportsPage}
    (h : (c.pagesBehind i)[k]? = some page) :
    page = c.page (i + k) ∧ (k = 0 ∨ i + k < c.exportPages.length) := by
  obtain ⟨hk, rfl⟩ := List.getElem?_eq_some_iff.mp h
  simp only [pagesBehind, List.length_map, List.length_range'] at hk
  exact ⟨by simp [pagesBehind], by omega⟩

/-- **Following the tokens reads each page once, in order, and ends.** From a token that stands for
an index `i` with a next index exactly one chain of pages follows. It has the exports of the pages
from `i` on, or is a single empty page if there are none. No index on it is without a next one, and
a page at index `i + k` has a token exactly if the page `i + k + 1` exists, which then is what the
token stands for. -/
theorem pages_chained (c : Cloud) (ht : tokenIndex? token = some i) (hi : i + 1 < UInt64.size) :
    let n := c.exportPages.length
    ∃ pages, (∀ pages', c.Chain token pages' ↔ pages' = pages) ∧
      pages.map (·.exports) = (if i < n then c.exportPages.drop i else [[]]) ∧
      ∀ k page, pages[k]? = some page → i + k + 1 < UInt64.size ∧
        (page.next.isSome ↔ i + k + 1 < n) ∧
        ∀ next, page.next = some next → tokenIndex? (some next) = some (i + k + 1) := by
  intro n
  refine ⟨c.pagesBehind i, fun pages' => ⟨fun h => h.unique (chain_pagesBehind ht hi), ?_⟩,
    exports_pagesBehind, fun k page hk => ?_⟩
  · rintro rfl
    exact chain_pagesBehind ht hi
  · obtain ⟨hpage, hk⟩ := getElem?_pagesBehind hk
    have hlt : i + k + 1 < UInt64.size := by
      rcases hk with rfl | hk
      · exact hi
      · exact Nat.lt_of_le_of_lt hk c.pages_lt
    rw [hpage, next_page hlt]
    refine ⟨hlt, ?_, fun next hnext => ?_⟩
    · split <;> simp [n, *]
    · split at hnext
      · obtain rfl := Option.some.inj hnext
        exact tokenIndex_toText hlt
      · cases hnext

/-- A cloud with three pages of exports. -/
def threePages : Cloud :=
  { exportPages := [[⟨some "A", some "a"⟩], [⟨some "B", some "b"⟩], [⟨some "C", some "c"⟩]] }

/-- From the token `+1` the second and the third of three pages follow. -/
theorem pages_chained_of_threePages : tokenIndex? (some "+1") = some 1 ∧
    ∃ pages, (∀ pages', threePages.Chain (some "+1") pages' ↔ pages' = pages) ∧
      pages.map (·.exports) = [[⟨some "B", some "b"⟩], [⟨some "C", some "c"⟩]] := by
  have ht : tokenIndex? (some "+1") = some 1 := by decide
  obtain ⟨pages, hchain, hexports, -⟩ := threePages.pages_chained ht (by decide)
  exact ⟨ht, pages, hchain, hexports⟩

/-- The last index has a token like every other. The page that is asked for with it is empty, but it
is not the only one: the three pages of the cloud come behind it. -/
theorem pages_not_chained_from_lastIndex :
    tokenIndex? (some "18446744073709551615") = some (UInt64.size - 1) ∧
      threePages.exportPages.length ≤ UInt64.size - 1 ∧
      ¬ threePages.Chain (some "18446744073709551615") [⟨[], none⟩] ∧
      threePages.Chain (some "18446744073709551615")
        (⟨[], some "0"⟩ :: threePages.pagesBehind 0) := by
  have ht : tokenIndex? (some "18446744073709551615") = some (UInt64.size - 1) := by decide
  have hzero : Decimal.toText 0 = "0" := by
    rw [Decimal.toText, Decimal.digits]
    rfl
  have hpage : threePages.answer (.exports (some "18446744073709551615")) = .ok ⟨[], some "0"⟩ := by
    rw [answer_of_tokenIndex ht, next_lastIndex (by decide), hzero]
  have hchain : threePages.Chain (some "18446744073709551615")
      (⟨[], some "0"⟩ :: threePages.pagesBehind 0) :=
    .step hpage rfl (chain_pagesBehind (by decide) (by decide))
  refine ⟨ht, by decide, fun h => ?_, hchain⟩
  -- The empty page has a token.
  have heq := hchain.unique h
  simp at heq

end Cloud

end StackExpr
