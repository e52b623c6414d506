import Mathlib.Data.List.Lex
import StackExpr.Proofs.NestedStack
/-!
# The order of a tree of nested stacks

An entry of a tree has a position: the place of each stack on the way to it among the stacks beside
it, from the outermost on. Positions are ordered as words are: a stack comes before what is nested
in it, whose positions begin with its own, and both come before the next stack beside it.

**The listing of a tree goes through all its entries in the order of their positions.** Hence **the
search finds the entry of an id that has the first position, and nothing just when the id stands
nowhere in the tree** (`NestedStack.found_first`), however deep the tree is and however often an id
is used in it.
-/

namespace StackExpr.NestedStack

/-! ## Positions -/

/-- The entry at a position. -/
def entryAt? : (position : List Nat) → Dict NestedStack → Option (String × NestedStack)
  | [], _ => none
  | [i], ns => ns[i]?
  | i :: j :: below, ns => ns[i]?.bind fun e => entryAt? (j :: below) e.2.nested

theorem entryAt?_zero (e : String × NestedStack) (rest : Dict NestedStack) (below : List Nat) :
    entryAt? (0 :: below) (e :: rest)
      = if below = [] then some e else entryAt? below e.2.nested := by
  cases below with
  | nil => rfl
  | cons j below => simp [entryAt?]

theorem entryAt?_succ (i : Nat) (e : String × NestedStack) (rest : Dict NestedStack)
    (below : List Nat) : entryAt? ((i + 1) :: below) (e :: rest) = entryAt? (i :: below) rest := by
  cases below with
  | nil => simp [entryAt?]
  | cons j below => simp [entryAt?]

/-- The entries of a tree with their positions, as they are listed. The outermost are counted from
`i` on. -/
def placedFrom (i : Nat) : Dict NestedStack → List (List Nat × String × NestedStack)
  | [] => []
  | (key, mk name template inner) :: rest =>
    ([i], key, mk name template inner) ::
      (placedFrom 0 inner).map (fun e => (i :: e.1, e.2)) ++ placedFrom (i + 1) rest

/-- The entries of a tree with their positions. -/
def placed (ns : Dict NestedStack) : List (List Nat × String × NestedStack) := placedFrom 0 ns

theorem map_snd_placedFrom : (ns : Dict NestedStack) → (i : Nat) →
    (placedFrom i ns).map Prod.snd = preorder ns
  | [], i => by
    rw [placedFrom, preorder]
    rfl
  | (key, mk name template inner) :: rest, i => by
    rw [placedFrom, preorder, List.map_append, List.map_cons, List.map_map,
      map_snd_placedFrom rest (i + 1), ← map_snd_placedFrom inner 0]
    rfl

theorem mem_placedFrom_iff : (ns : Dict NestedStack) → (i : Nat) → (p : List Nat) →
    (e : String × NestedStack) → ((p, e) ∈ placedFrom i ns ↔
      ∃ j below, p = (i + j) :: below ∧ entryAt? (j :: below) ns = some e)
  | [], i, p, e => by
    rw [placedFrom]
    constructor
    · intro h
      exact absurd h List.not_mem_nil
    · rintro ⟨j, below, -, h⟩
      cases below <;> simp [entryAt?] at h
  | (key, mk name template inner) :: rest, i, p, e => by
    rw [placedFrom, List.mem_append, List.mem_cons, List.mem_map,
      mem_placedFrom_iff rest (i + 1) p e]
    constructor
    · rintro ((h | ⟨⟨q, e'⟩, hq, h⟩) | ⟨j, below, rfl, h⟩)
      · cases h
        exact ⟨0, [], rfl, rfl⟩
      · cases h
        obtain ⟨j, below, rfl, h⟩ := (mem_placedFrom_iff inner 0 q e').mp hq
        refine ⟨0, j :: below, by simp, ?_⟩
        rw [entryAt?_zero, if_neg (List.cons_ne_nil j below)]
        exact h
      · refine ⟨j + 1, below, by rw [Nat.add_right_comm, Nat.add_assoc], ?_⟩
        rw [entryAt?_succ]
        exact h
    · rintro ⟨j, below, rfl, h⟩
      cases j with
      | zero =>
        rw [entryAt?_zero] at h
        by_cases hb : below = []
        · rw [if_pos hb] at h
          cases h
          subst hb
          exact Or.inl (Or.inl rfl)
        · rw [if_neg hb] at h
          obtain ⟨k, below', rfl⟩ := List.exists_cons_of_ne_nil hb
          refine Or.inl (Or.inr ⟨(k :: below', e), ?_, rfl⟩)
          rw [mem_placedFrom_iff inner 0]
          exact ⟨k, below', by simp, h⟩
      | succ j =>
        rw [entryAt?_succ] at h
        exact Or.inr ⟨j, below, by rw [Nat.add_right_comm, Nat.add_assoc], h⟩

/-- Every entry is placed where it stands, and nothing else is placed. -/
theorem mem_placed_iff {ns : Dict NestedStack} {p : List Nat} {e : String × NestedStack} :
    (p, e) ∈ placed ns ↔ entryAt? p ns = some e := by
  rw [placed, mem_placedFrom_iff]
  constructor
  · rintro ⟨j, below, rfl, h⟩
    rw [Nat.zero_add]
    exact h
  · intro h
    cases p with
    | nil => cases h
    | cons j below => exact ⟨j, below, by simp, h⟩

theorem mem_preorder_iff {ns : Dict NestedStack} {e : String × NestedStack} :
    e ∈ preorder ns ↔ ∃ p, entryAt? p ns = some e := by
  rw [← map_snd_placedFrom ns 0, List.mem_map]
  constructor
  · rintro ⟨⟨p, e⟩, h, rfl⟩
    exact ⟨p, mem_placed_iff.mp h⟩
  · rintro ⟨p, h⟩
    exact ⟨(p, e), mem_placed_iff.mpr h, rfl⟩

/-! ## The order of positions -/

theorem exists_of_mem_placedFrom {ns : Dict NestedStack} {i : Nat}
    {a : List Nat × String × NestedStack} (h : a ∈ placedFrom i ns) :
    ∃ j below, a.1 = (i + j) :: below := by
  obtain ⟨p, e⟩ := a
  obtain ⟨j, below, hp, -⟩ := (mem_placedFrom_iff ns i p e).mp h
  exact ⟨j, below, hp⟩

theorem pairwise_placedFrom : (ns : Dict NestedStack) → (i : Nat) →
    (placedFrom i ns).Pairwise fun a b => a.1 < b.1
  | [], i => by
    rw [placedFrom]
    exact List.Pairwise.nil
  | (key, mk name template inner) :: rest, i => by
    rw [placedFrom, List.pairwise_append, List.pairwise_cons, List.pairwise_map,
      List.forall_mem_map]
    have hbelow : ∀ a ∈ placedFrom 0 inner, [i] < i :: a.1 := by
      intro a ha
      obtain ⟨j, below, hp⟩ := exists_of_mem_placedFrom ha
      rw [hp]
      exact List.cons_lt_cons_iff.mpr (Or.inr ⟨rfl, List.nil_lt_cons _ _⟩)
    have hinner : (placedFrom 0 inner).Pairwise fun a b => i :: a.1 < i :: b.1 :=
      (pairwise_placedFrom inner 0).imp fun h => List.cons_lt_cons_iff.mpr (Or.inr ⟨rfl, h⟩)
    have hbeside : ∀ below, ∀ b ∈ placedFrom (i + 1) rest, i :: below < b.1 := by
      intro below b hb
      obtain ⟨j, below', hp⟩ := exists_of_mem_placedFrom hb
      rw [hp]
      exact List.cons_lt_cons_iff.mpr (Or.inl (by omega))
    refine ⟨⟨hbelow, hinner⟩, pairwise_placedFrom rest (i + 1), ?_⟩
    intro a ha b hb
    rcases List.mem_cons.mp ha with rfl | ha
    · exact hbeside [] b hb
    · obtain ⟨a', -, rfl⟩ := List.mem_map.mp ha
      exact hbeside a'.1 b hb

/-! ## The search -/

/-- The first entry of the listing under an id is the one at the first position. -/
theorem exists_split_iff {ns : Dict NestedStack} {id : String} {d : NestedStack} :
    (∃ passed rest, preorder ns = passed ++ (id, d) :: rest ∧ ∀ e ∈ passed, e.1 ≠ id) ↔
      ∃ p, entryAt? p ns = some (id, d) ∧
        ∀ q < p, ∀ e, entryAt? q ns = some e → e.1 ≠ id := by
  have hmem (p : List Nat) (e : String × NestedStack) :
      (p, e) ∈ placed ns ↔ entryAt? p ns = some e := mem_placed_iff
  have hordered : (placed ns).Pairwise fun a b => a.1 < b.1 := pairwise_placedFrom ns 0
  have hlisted : (placed ns).map Prod.snd = preorder ns := map_snd_placedFrom ns 0
  rw [← hlisted]
  constructor
  · rintro ⟨passed, rest, hns, hpassed⟩
    obtain ⟨before, _, hplaced, rfl, htail⟩ := List.map_eq_append_iff.mp hns
    obtain ⟨⟨p, e⟩, after, rfl, rfl, -⟩ := List.map_eq_cons_iff.mp htail
    rw [hplaced] at hmem hordered
    refine ⟨p, (hmem p _).mp (List.mem_append_right _ List.mem_cons_self), ?_⟩
    intro q hq e he
    obtain ⟨-, hafter, -⟩ := List.pairwise_append.mp hordered
    -- What stands behind the entry in the listing has a later position.
    rcases List.mem_append.mp ((hmem q e).mpr he) with h | h
    · exact hpassed e (List.mem_map.mpr ⟨(q, e), h, rfl⟩)
    · rcases List.mem_cons.mp h with h | h
      · cases h
        exact absurd hq (lt_irrefl _)
      · exact absurd hq (lt_asymm ((List.pairwise_cons.mp hafter).1 (q, e) h))
  · rintro ⟨p, hp, hfirst⟩
    obtain ⟨before, after, hplaced⟩ := List.mem_iff_append.mp ((hmem p _).mpr hp)
    rw [hplaced] at hmem hordered ⊢
    refine ⟨before.map Prod.snd, after.map Prod.snd, by simp, ?_⟩
    intro e he
    obtain ⟨⟨q, e'⟩, hq, rfl⟩ := List.mem_map.mp he
    obtain ⟨-, -, hbefore⟩ := List.pairwise_append.mp hordered
    exact hfirst q (hbefore (q, e') hq _ List.mem_cons_self) e'
      ((hmem q e').mp (List.mem_append_left _ hq))

/-- **The search finds the first entry of an id, and nothing just when there is none.** The listing
of a tree has all entries of all depths, each at its position and in the order of positions: an
entry before what is nested in it, and that before the next entry beside it. The search gives what
is declared under the id at the first position in this order, and gives nothing just when no entry
at any position has the id. -/
theorem found_first (ns : Dict NestedStack) :
    (preorder ns = (placed ns).map Prod.snd ∧ ((placed ns).Pairwise fun a b => a.1 < b.1) ∧
      ∀ p e, (p, e) ∈ placed ns ↔ entryAt? p ns = some e) ∧
    ∀ id,
      (∀ d, find? id ns = some d ↔
        ∃ passed rest, preorder ns = passed ++ (id, d) :: rest ∧ ∀ e ∈ passed, e.1 ≠ id) ∧
      (∀ d, find? id ns = some d ↔ ∃ p, entryAt? p ns = some (id, d) ∧
        ∀ q < p, ∀ e, entryAt? q ns = some e → e.1 ≠ id) ∧
      (find? id ns = none ↔ ∀ p e, entryAt? p ns = some e → e.1 ≠ id) := by
  refine ⟨⟨?_, pairwise_placedFrom ns 0, fun p e => mem_placed_iff⟩, fun id => ⟨?_, ?_, ?_⟩⟩
  · exact (map_snd_placedFrom ns 0).symm
  · exact fun d => find?_eq_some_iff
  · exact fun d => find?_eq_some_iff.trans exists_split_iff
  · rw [find?_eq_none_iff]
    constructor
    · intro h p e he
      exact h e (mem_preorder_iff.mpr ⟨p, he⟩)
    · intro h e he
      obtain ⟨p, hp⟩ := mem_preorder_iff.mp he
      exact h p e hp

/-- An id that is used three times: below a stack nested in the first one, beside that stack, and
beside the first one. -/
theorem found_first_of_repeated :
    let deep : NestedStack := mk (some "deep") {} []
    let b : NestedStack := mk none {} [("X", deep)]
    let a : NestedStack := mk none {} [("B", b), ("X", mk (some "below") {} [])]
    let ns : Dict NestedStack := [("A", a), ("X", mk (some "beside") {} [])]
    find? "X" ns = some deep ∧ entryAt? [0, 0, 0] ns = some ("X", deep) ∧
      ∃ p, entryAt? p ns = some ("X", deep) ∧
        ∀ q < p, ∀ e, entryAt? q ns = some e → e.1 ≠ "X" := by
  intro deep b a ns
  obtain ⟨hlisting, hposition, -⟩ := (found_first ns).2 "X"
  have hfound : find? "X" ns = some deep := by
    rw [hlisting]
    refine ⟨[("A", a), ("B", b)], [("X", mk (some "below") {} []), ("X", mk (some "beside") {} [])],
      ?_, by simp⟩
    simp [ns, a, b, deep, preorder]
  exact ⟨hfound, rfl, (hposition deep).mp hfound⟩

end StackExpr.NestedStack
