import StackExpr.Evaluator
/-!
# Looking up nested stacks

`NestedStack.preorder` lists the entries of a tree of nested stacks, each before what is nested in
it. **The search finds the first entry of this list under the id**
(`NestedStack.find?_eq_some_iff`). That need not be the entry of the stack itself: an id that is
also used in the tree of an earlier sibling is found there first (`NestedStack.find?_of_direct`).
-/

namespace StackExpr

namespace NestedStack

/-- **The search finds the first entry of the listing.** -/
theorem find?_eq_find? (id : String) : (ns : Dict NestedStack) →
    find? id ns = ((preorder ns).find? fun e => e.1 == id).map Prod.snd
  | [] => by
    rw [find?, preorder]
    rfl
  | (key, mk name template inner) :: rest => by
    rw [find?, preorder, List.cons_append, List.find?_cons]
    by_cases hk : key = id
    · simp [hk]
    · have hbeq : (key == id) = false := beq_eq_false_iff_ne.mpr hk
      rw [if_neg hk, find?_eq_find? id inner, find?_eq_find? id rest]
      simp only [hbeq, List.find?_append]
      cases (preorder inner).find? fun e => e.1 == id <;> rfl

theorem find?_eq_some_iff {id : String} {ns : Dict NestedStack} {d : NestedStack} :
    find? id ns = some d ↔
      ∃ passed rest, preorder ns = passed ++ (id, d) :: rest ∧ ∀ e ∈ passed, e.1 ≠ id := by
  rw [find?_eq_find?, Option.map_eq_some_iff]
  constructor
  · rintro ⟨⟨key, d⟩, hf, rfl⟩
    obtain ⟨hk, passed, rest, hns, hpassed⟩ := List.find?_eq_some_iff_append.mp hf
    obtain rfl : key = id := by simpa using hk
    exact ⟨passed, rest, hns, fun e he => by simpa using hpassed e he⟩
  · rintro ⟨passed, rest, hns, hpassed⟩
    refine ⟨(id, d), List.find?_eq_some_iff_append.mpr ⟨by simp, passed, rest, hns, ?_⟩, rfl⟩
    exact fun e he => by simpa using hpassed e he

theorem mem_preorder_of_find? {id : String} {ns : Dict NestedStack} {d : NestedStack}
    (h : find? id ns = some d) : (id, d) ∈ preorder ns := by
  obtain ⟨passed, rest, hns, -⟩ := find?_eq_some_iff.mp h
  rw [hns]
  exact List.mem_append_right _ List.mem_cons_self

theorem find?_eq_none_iff {id : String} {ns : Dict NestedStack} :
    find? id ns = none ↔ ∀ e ∈ preorder ns, e.1 ≠ id := by
  rw [find?_eq_find?, Option.map_eq_none_iff, List.find?_eq_none]
  simp

theorem preorder_append (before after : Dict NestedStack) :
    preorder (before ++ after) = preorder before ++ preorder after := by
  induction before with
  | nil => rw [List.nil_append, preorder, List.nil_append]
  | cons e before ih =>
    obtain ⟨key, name, template, inner⟩ := e
    rw [List.cons_append, preorder, preorder, ih, List.append_assoc]

/-- **An entry of the stack itself is found, unless one is found in what stands before it.** -/
theorem find?_of_direct (id : String) (before after : Dict NestedStack) (d : NestedStack) :
    find? id (before ++ (id, d) :: after) = some ((find? id before).getD d) := by
  obtain ⟨name, template, inner⟩ := d
  rw [find?_eq_find?, find?_eq_find?, preorder_append, preorder, List.find?_append,
    List.cons_append, List.find?_cons]
  cases (preorder before).find? fun e => e.1 == id <;> simp

end NestedStack

/-- The steps in the tree of an entry are among the steps in the whole tree. -/
theorem Evaluator.steps_lt_of_mem_preorder {key : String} {name : Option String}
    {template : Template} {inner : Dict NestedStack} : (ns : Dict NestedStack) →
    (key, .mk name template inner) ∈ NestedStack.preorder ns →
    ownSteps template inner + nestedSteps inner < nestedSteps ns
  | [], h => by
    rw [NestedStack.preorder] at h
    exact absurd h List.not_mem_nil
  | (key', .mk name' template' inner') :: rest, h => by
    rw [NestedStack.preorder, List.cons_append] at h
    rw [nestedSteps]
    rcases List.mem_cons.mp h with h | h
    · cases h
      omega
    · rcases List.mem_append.mp h with h | h
      · have := steps_lt_of_mem_preorder inner' h
        omega
      · have := steps_lt_of_mem_preorder rest h
        omega

end StackExpr
