import StackExpr.Text.Split
/-!
# Substitution templates

A substitution template is text with placeholders, scanned once from left to right.

* `${Name}` is a placeholder for `Name`
* `${!Name}` stands for the literal text `${Name}`
* a `${` that no `}` closes is literal text

`parse` gives the segments of a template: no literal is empty, and no two literals stand side by
side.

## Why the recursion ends

`scan` goes on behind the closing brace it found, which is shorter than the text it started from.
-/

namespace StackExpr.Sub

/-- A piece of a template. -/
inductive Segment where
  | literal (text : String)
  | placeholder (name : String)
  deriving DecidableEq

/-- The opening of a placeholder. -/
def opening : List Char := ['$', '\x7b']

/-- The text before the first closed `${…}`, what stands between its braces, and the text after
it. -/
def nextGroup (s : List Char) : Option (List Char × List Char × List Char) :=
  match Text.cut opening s with
  | none => none
  | some (before, inside) =>
    (Text.cut ['\x7d'] inside).map fun (token, rest) => (before, token, rest)

theorem nextGroup_length {s before token rest : List Char}
    (h : nextGroup s = some (before, token, rest)) : rest.length < s.length := by
  simp only [nextGroup] at h
  split at h
  · simp at h
  · rename_i before' inside hc
    simp only [Option.map_eq_some_iff, Prod.mk.injEq] at h
    obtain ⟨⟨t, r⟩, hr, -, -, rfl⟩ := h
    have h₁ := Text.cut_length (by simp [opening]) hc
    have h₂ := Text.cut_length (by simp) hr
    exact Nat.lt_trans h₂ h₁

/-- A literal segment, unless it is empty. -/
def flush (literal : List Char) : List Segment :=
  if literal = [] then [] else [.literal (String.ofList literal)]

/-- What stands behind the mark of an escaped placeholder, if this is one. -/
def escaped? : List Char → Option (List Char)
  | '!' :: escaped => some escaped
  | _ => none

/-- The segments of `s`, where `literal` is the literal text read just before it. -/
def scan (literal s : List Char) : List Segment :=
  match _h : nextGroup s with
  | none => flush (literal ++ s)
  | some (before, token, rest) =>
    match escaped? token with
    | some escaped => scan (literal ++ before ++ opening ++ escaped ++ ['\x7d']) rest
    | none => flush (literal ++ before) ++ .placeholder (String.ofList token) :: scan [] rest
termination_by s.length
decreasing_by all_goals exact nextGroup_length _h

/-- The segments of a template. -/
def parse (template : String) : List Segment := scan [] template.toList

/-! ## Placeholders -/

/-- What a placeholder refers to when it is no variable. -/
inductive Target where
  /-- A name. -/
  | ref (id : String)
  /-- An attribute, all of the text behind the first dot. -/
  | getAtt (id attr : String)
  deriving DecidableEq

/-- What a placeholder refers to: an attribute if there is a dot in it, else a name. -/
def Target.ofPlaceholder (name : String) : Target :=
  match Text.cutAt '.' name with
  | some (id, attr) => .getAtt id attr
  | none => .ref name

/-- The id of an attribute is what stands before the first dot. -/
theorem Target.ofPlaceholder_eq (name : String) : ofPlaceholder name =
    if '.' ∈ name.toList then .getAtt (String.ofList (name.toList.takeWhile (· != '.')))
      (String.ofList (name.toList.dropWhile (· != '.')).tail)
    else .ref name := by
  by_cases hdot : '.' ∈ name.toList
  · rw [if_pos hdot, ofPlaceholder, Text.cutAt, Text.cut_singleton hdot]
    rfl
  · have hcut : Text.cut ['.'] name.toList = none :=
      Text.cut_eq_none_iff.mpr fun h => hdot (h.subset List.mem_cons_self)
    rw [if_neg hdot, ofPlaceholder, Text.cutAt, hcut]
    rfl

end StackExpr.Sub
