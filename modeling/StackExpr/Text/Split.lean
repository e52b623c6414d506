/-!
# Cutting a text at a separator

All functions work on lists of characters.

* `cut sep s` — the text before and after the first occurrence of `sep`
* `splitOn sep s` — the pieces between the occurrences of `sep`, found from left to right and
  without overlap
* `chars s` — one piece per character, which is what splitting at an empty separator means

## Why the recursion ends

`cut` walks down the list. `splitOn` goes on with what `cut` left behind the separator, which is
shorter than the text because the separator is not empty (`cut_eq`).
-/

namespace StackExpr.Text

/-! ## The first occurrence -/

/-- The text before and after the first occurrence of `sep` in `s`. -/
def cut (sep : List Char) : List Char → Option (List Char × List Char)
  | [] => if sep = [] then some ([], []) else none
  | c :: cs =>
    if sep.isPrefixOf (c :: cs) then some ([], (c :: cs).drop sep.length)
    else (cut sep cs).map fun (before, after) => (c :: before, after)

/-- Cutting loses nothing but the separator. -/
theorem cut_eq {sep s before after : List Char} (h : cut sep s = some (before, after)) :
    s = before ++ sep ++ after := by
  induction s generalizing before after with
  | nil =>
    simp only [cut] at h
    split at h <;> simp_all
  | cons c cs ih =>
    simp only [cut] at h
    split at h
    · rename_i hp
      obtain ⟨t, ht⟩ := List.isPrefixOf_iff_prefix.mp hp
      simp only [Option.some.injEq, Prod.mk.injEq] at h
      obtain ⟨rfl, rfl⟩ := h
      rw [← ht]
      simp
    · simp only [Option.map_eq_some_iff, Prod.mk.injEq] at h
      obtain ⟨⟨b, a⟩, hb, rfl, rfl⟩ := h
      simp [ih hb]

/-- What is left behind a separator is shorter than the text. -/
theorem cut_length {sep s before after : List Char} (hsep : sep ≠ [])
    (h : cut sep s = some (before, after)) : after.length < s.length := by
  have hs := List.length_pos_iff.mpr hsep
  rw [cut_eq h]
  simp only [List.length_append]
  omega

/-- A text without the separator is not cut. -/
theorem cut_eq_none_iff {sep s : List Char} : cut sep s = none ↔ ¬ sep <:+: s := by
  induction s with
  | nil => by_cases h : sep = [] <;> simp [cut, h]
  | cons c cs ih =>
    simp only [cut]
    by_cases hp : sep.isPrefixOf (c :: cs) = true
    · simp only [hp, if_true, reduceCtorEq, false_iff]
      exact fun h => h (List.isPrefixOf_iff_prefix.mp hp).isInfix
    · simp only [hp, if_false, Option.map_eq_none_iff, ih, List.infix_cons_iff,
        ← List.isPrefixOf_iff_prefix, Bool.false_eq_true, false_or]

/-- A text is cut where a character first stands in it. -/
theorem cut_singleton {c : Char} {s : List Char} (h : c ∈ s) :
    cut [c] s = some (s.takeWhile (· != c), (s.dropWhile (· != c)).tail) := by
  induction s with
  | nil => exact absurd h List.not_mem_nil
  | cons x s ih =>
    by_cases hx : x = c
    · subst hx
      simp [cut]
    · have hs : c ∈ s := (List.mem_cons.mp h).resolve_left (Ne.symm hx)
      simp [cut, ih hs, hx, Ne.symm hx]

theorem append_dropLast_isPrefix_append (before sep after : List Char) :
    before ++ sep.dropLast <+: before ++ sep ++ after := by
  rw [List.append_assoc, List.prefix_append_right_inj]
  exact (List.dropLast_prefix sep).trans (List.prefix_append _ _)

/-- What stands before a cut holds no separator, not even one that ends within the separator that is
cut at. -/
theorem cut_eq_some_iff {sep s before after : List Char} (hsep : sep ≠ []) :
    cut sep s = some (before, after) ↔
      s = before ++ sep ++ after ∧ ¬ sep <:+: before ++ sep.dropLast := by
  have hshorter : ¬ sep <:+: sep.dropLast := fun hi => by
    have hle := hi.length_le
    have hpos := List.length_pos_iff.mpr hsep
    rw [List.length_dropLast] at hle
    omega
  constructor
  · intro h
    refine ⟨cut_eq h, ?_⟩
    induction s generalizing before with
    | nil => simp [cut, hsep] at h
    | cons c cs ih =>
      rw [cut] at h
      split at h
      · obtain ⟨rfl, -⟩ := Prod.mk.inj (Option.some.inj h)
        exact hshorter
      · next hp =>
        obtain ⟨⟨b, a⟩, hb, he⟩ := Option.map_eq_some_iff.mp h
        obtain ⟨rfl, rfl⟩ := Prod.mk.inj he
        rw [List.cons_append, List.infix_cons_iff]
        refine not_or.mpr ⟨fun hpre => hp (List.isPrefixOf_iff_prefix.mpr ?_), ih hb⟩
        rw [cut_eq hb]
        exact hpre.trans (append_dropLast_isPrefix_append (c :: b) sep a)
  · rintro ⟨rfl, h⟩
    induction before with
    | nil =>
      obtain ⟨c, cs, rfl⟩ := List.exists_cons_of_ne_nil hsep
      have hp : (c :: cs).isPrefixOf (c :: (cs ++ after)) = true :=
        List.isPrefixOf_iff_prefix.mpr (List.prefix_append (c :: cs) after)
      rw [List.nil_append, List.cons_append, cut, if_pos hp, ← List.cons_append, List.drop_left]
    | cons c before ih =>
      rw [List.cons_append, List.infix_cons_iff, not_or] at h
      have hp : ¬ sep.isPrefixOf (c :: (before ++ sep ++ after)) = true := by
        rw [List.isPrefixOf_iff_prefix]
        refine fun hpre => h.1 (List.prefix_of_prefix_length_le hpre
          (append_dropLast_isPrefix_append (c :: before) sep after) ?_)
        rw [List.length_cons, List.length_append, List.length_dropLast]
        omega
      rw [List.cons_append, List.cons_append, cut, if_neg hp, ih h.2]
      rfl

/-! ## All occurrences -/

/-- The pieces of `s` between the occurrences of `sep`; an empty separator cuts nowhere. -/
def splitOn (sep : List Char) (s : List Char) : List (List Char) :=
  if _hsep : sep = [] then [s]
  else
    match _h : cut sep s with
    | none => [s]
    | some (before, after) => before :: splitOn sep after
termination_by s.length
decreasing_by exact cut_length _hsep _h

/-- One piece per character. -/
def chars (s : List Char) : List (List Char) := s.map fun c => [c]

/-- The text before and after the first `c`. -/
def cutAt (c : Char) (s : String) : Option (String × String) :=
  (cut [c] s.toList).map fun (before, after) => (String.ofList before, String.ofList after)

/-- The piece number `n` (from 0) of `s` between the occurrences of `sep`. -/
def piece? (sep : String) (n : Nat) (s : String) : Option String :=
  ((splitOn sep.toList s.toList)[n]?).map String.ofList

/-- The text behind `start`, if the text begins with it. -/
def dropStart? (start s : String) : Option String :=
  if start.toList.isPrefixOf s.toList then some (String.ofList (s.toList.drop start.toList.length))
  else none

theorem dropStart?_append (start s : String) : dropStart? start (start ++ s) = some s := by
  have hprefix : start.toList.isPrefixOf (start ++ s).toList = true := by simp
  rw [dropStart?, if_pos hprefix, String.toList_append, List.drop_left, String.ofList_toList]

theorem eq_append_of_dropStart? {start s t : String} (h : dropStart? start s = some t) :
    s = start ++ t := by
  rw [dropStart?] at h
  split at h
  · next hprefix =>
    obtain ⟨t', ht'⟩ := List.isPrefixOf_iff_prefix.mp hprefix
    obtain rfl := Option.some.inj h
    apply String.toList_inj.mp
    rw [String.toList_append, String.toList_ofList, ← ht', List.drop_left]
  · cases h

end StackExpr.Text
