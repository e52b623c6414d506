import Mathlib.Data.List.Infix
import StackExpr.Sub
/-!
# Templates and their segments

A substitution template can be read off its segments again (`Sub.encode`): a placeholder is written
as `${Name}`, and a literal text as it is, except that its groups, which would be read as
placeholders, get the mark of escaped ones. **A template and its segments determine each other**, as
long as the segments are such that a reader can tell them apart (`Sub.parse_lossless`).

A group of a text is a `${` with all that follows up to the first closing brace. A text is taken
apart group by group (`Sub.groups_induction`): it begins with a group and plain text before it, or
it has no group but one that is left open, or none at all.
-/

namespace StackExpr.Sub

/-! ## Writing segments -/

mutual

/-- A literal text as it is written: its groups get the mark of escaped placeholders. -/
def escape : List Char → List Char
  | [] => []
  | '$' :: '\x7b' :: s =>
    if '\x7d' ∈ s then opening ++ '!' :: escapeGroup s else opening ++ s
  | c :: s => c :: escape s

/-- What is left of a group, and what follows it, as they are written. -/
def escapeGroup : List Char → List Char
  | [] => []
  | '\x7d' :: s => '\x7d' :: escape s
  | c :: s => c :: escapeGroup s

end

/-- A segment as it is written. -/
def Segment.written : Segment → List Char
  | .literal text => escape text.toList
  | .placeholder name => opening ++ (name.toList ++ ['\x7d'])

/-- The template of segments. -/
def encode (segments : List Segment) : String := String.ofList (segments.flatMap Segment.written)

/-! ## Segments that can be told apart -/

mutual

/-- Every group that begins in the text, as it is read from left to right, ends in it. -/
def Closed : List Char → Prop
  | [] => True
  | '$' :: '\x7b' :: s => ClosesGroup s
  | _ :: s => Closed s

/-- The group that has begun ends in the text, and so does every group that begins behind it. -/
def ClosesGroup : List Char → Prop
  | [] => False
  | '\x7d' :: s => Closed s
  | _ :: s => ClosesGroup s

end

/-- The text may stand between the braces of a placeholder: it does not close them, nor does it
begin with the mark of an escaped one. -/
def IsName (name : List Char) : Prop := '\x7d' ∉ name ∧ name.head? ≠ some '!'

/-- No literal is empty, no two of them stand side by side, names may stand between braces, and no
literal leaves a group open for the placeholder behind it to close. -/
def Canonical : List Segment → Prop
  | [] => True
  | .placeholder name :: rest => IsName name.toList ∧ Canonical rest
  | [.literal text] => text ≠ ""
  | .literal text :: .placeholder name :: rest =>
    text ≠ "" ∧ Closed text.toList ∧ IsName name.toList ∧ Canonical rest
  | .literal _ :: .literal _ :: _ => False

/-! ## Groups -/

section Group

variable {before token inside rest s : List Char}

theorem infix_concat_iff : opening <:+: before ++ ['$'] ↔ opening <:+: before := by
  refine ⟨fun h => ?_, fun h => h.trans (List.prefix_append _ _).isInfix⟩
  induction before with
  | nil => simp [opening, List.infix_cons_iff] at h
  | cons c before ih =>
    rw [List.cons_append, List.infix_cons_iff] at h
    rw [List.infix_cons_iff]
    refine h.imp (fun h => ?_) ih
    cases before with
    | nil => simp [opening] at h
    | cons d before => simpa [opening] using h

theorem cut_opening_eq_some_iff : Text.cut opening s = some (before, inside) ↔
    s = before ++ (opening ++ inside) ∧ ¬ opening <:+: before := by
  rw [Text.cut_eq_some_iff (by simp [opening]), List.append_assoc]
  exact and_congr_right fun _ => not_congr infix_concat_iff

theorem cut_closing_eq_some_iff : Text.cut ['\x7d'] inside = some (token, rest) ↔
    inside = token ++ '\x7d' :: rest ∧ '\x7d' ∉ token := by
  rw [Text.cut_eq_some_iff (List.cons_ne_nil _ _)]
  simp [List.singleton_infix_iff]

/-- The text before the first group holds no opening, and the group ends at its first closing
brace. -/
theorem nextGroup_eq_some_iff : nextGroup s = some (before, token, rest) ↔
    s = before ++ (opening ++ (token ++ '\x7d' :: rest)) ∧ ¬ opening <:+: before ∧
      '\x7d' ∉ token := by
  have hcut : nextGroup s = some (before, token, rest) ↔
      ∃ inside, Text.cut opening s = some (before, inside) ∧
        Text.cut ['\x7d'] inside = some (token, rest) := by
    unfold nextGroup
    rcases Text.cut opening s with _ | ⟨before', inside'⟩
    · simp
    · simp only [Option.map_eq_some_iff, Prod.exists, Prod.mk.injEq, Option.some.injEq]
      grind
  simp only [hcut, cut_opening_eq_some_iff, cut_closing_eq_some_iff]
  constructor
  · rintro ⟨_, ⟨hs, hb⟩, rfl, ht⟩
    exact ⟨hs, hb, ht⟩
  · rintro ⟨hs, hb, ht⟩
    exact ⟨_, ⟨hs, hb⟩, rfl, ht⟩

theorem nextGroup_group (hb : ¬ opening <:+: before) (ht : '\x7d' ∉ token) (rest : List Char) :
    nextGroup (before ++ (opening ++ (token ++ '\x7d' :: rest))) = some (before, token, rest) :=
  nextGroup_eq_some_iff.mpr ⟨rfl, hb, ht⟩

theorem nextGroup_plain (h : ¬ opening <:+: s) : nextGroup s = none := by
  rw [nextGroup, Text.cut_eq_none_iff.mpr h]

theorem nextGroup_left (hb : ¬ opening <:+: before) (hi : '\x7d' ∉ inside) :
    nextGroup (before ++ (opening ++ inside)) = none := by
  have hclosing : Text.cut ['\x7d'] inside = none :=
    Text.cut_eq_none_iff.mpr ((List.singleton_infix_iff _ _).not.mpr hi)
  rw [nextGroup, cut_opening_eq_some_iff.mpr ⟨rfl, hb⟩]
  show (Text.cut ['\x7d'] inside).map _ = none
  rw [hclosing, Option.map_none]

/-- **A text is taken apart group by group.** -/
@[elab_as_elim]
theorem groups_induction {P : List Char → Prop} (plain : ∀ s, ¬ opening <:+: s → P s)
    (left : ∀ before inside, ¬ opening <:+: before → '\x7d' ∉ inside →
      P (before ++ (opening ++ inside)))
    (group : ∀ before token rest, ¬ opening <:+: before → '\x7d' ∉ token → P rest →
      P (before ++ (opening ++ (token ++ '\x7d' :: rest)))) (s : List Char) : P s := by
  cases hc : Text.cut opening s with
  | none => exact plain s (Text.cut_eq_none_iff.mp hc)
  | some c =>
    obtain ⟨before, inside⟩ := c
    obtain ⟨hs, hb⟩ := cut_opening_eq_some_iff.mp hc
    by_cases hi : '\x7d' ∈ inside
    · obtain ⟨token, rest, rfl, ht⟩ := List.eq_append_cons_of_mem hi
      have hshorter : rest.length < s.length := nextGroup_length (hs ▸ nextGroup_group hb ht rest)
      rw [hs]
      exact group before token rest hb ht (groups_induction plain left group rest)
    · rw [hs]
      exact left before inside hb hi
termination_by s.length

/-- A character of a text without an opening does not open anything. -/
theorem head_ne_opening {c : Char} (hb : ¬ opening <:+: c :: before)
    (hs : s = [] ∨ ∃ inside, s = opening ++ inside) :
    ∀ t, c = '$' → before ++ s = '\x7b' :: t → False := by
  rintro t rfl ht
  cases before with
  | nil => rcases hs with rfl | ⟨inside, rfl⟩ <;> simp [opening] at ht
  | cons d before =>
    obtain ⟨rfl, -⟩ := List.cons_eq_cons.mp ht
    exact hb ⟨[], before, rfl⟩

/-! ## Groups as they are written -/

theorem escape_opening (s : List Char) : escape (opening ++ s)
    = if '\x7d' ∈ s then opening ++ '!' :: escapeGroup s else opening ++ s := escape.eq_2 s

theorem escape_append (hb : ¬ opening <:+: before)
    (hs : s = [] ∨ ∃ inside, s = opening ++ inside) :
    escape (before ++ s) = before ++ escape s := by
  induction before with
  | nil => rfl
  | cons c before ih =>
    have hbefore : ¬ opening <:+: before := fun h => hb (List.infix_cons h)
    rw [List.cons_append, escape.eq_3 _ _ (head_ne_opening hb hs), ih hbefore, List.cons_append]

theorem escape_plain (h : ¬ opening <:+: s) : escape s = s := by
  have he := escape_append h (Or.inl rfl)
  rwa [List.append_nil, escape, List.append_nil] at he

theorem escape_left (hb : ¬ opening <:+: before) (hi : '\x7d' ∉ inside) :
    escape (before ++ (opening ++ inside)) = before ++ (opening ++ inside) := by
  rw [escape_append hb (Or.inr ⟨inside, rfl⟩), escape_opening, if_neg hi]

theorem escapeGroup_append (ht : '\x7d' ∉ token) (rest : List Char) :
    escapeGroup (token ++ '\x7d' :: rest) = token ++ '\x7d' :: escape rest := by
  induction token with
  | nil => rfl
  | cons c token ih =>
    obtain ⟨hc, ht⟩ := not_or.mp (List.mem_cons.not.mp ht)
    rw [List.cons_append, escapeGroup.eq_3 _ _ (Ne.symm hc), ih ht, List.cons_append]

theorem escape_group (hb : ¬ opening <:+: before) (ht : '\x7d' ∉ token) (rest : List Char) :
    escape (before ++ (opening ++ (token ++ '\x7d' :: rest)))
      = before ++ (opening ++ ('!' :: token ++ '\x7d' :: escape rest)) := by
  have hclosing : '\x7d' ∈ token ++ '\x7d' :: rest :=
    List.mem_append_right _ List.mem_cons_self
  rw [escape_append hb (Or.inr ⟨_, rfl⟩), escape_opening, if_pos hclosing, escapeGroup_append ht,
    List.cons_append]

theorem escape_of_nextGroup_eq_none (h : nextGroup s = none) : escape s = s := by
  induction s using groups_induction with
  | plain s hs => exact escape_plain hs
  | left before inside hb hi => exact escape_left hb hi
  | group before token rest hb ht _ => cases h.symm.trans (nextGroup_group hb ht rest)

/-! ## Groups that are closed -/

theorem closed_append (hb : ¬ opening <:+: before)
    (hs : s = [] ∨ ∃ inside, s = opening ++ inside) : Closed (before ++ s) ↔ Closed s := by
  induction before with
  | nil => rfl
  | cons c before ih =>
    have hbefore : ¬ opening <:+: before := fun h => hb (List.infix_cons h)
    rw [List.cons_append, Closed.eq_3 _ _ (head_ne_opening hb hs), ih hbefore]

theorem closed_plain (h : ¬ opening <:+: s) : Closed s := by
  have hc := closed_append h (Or.inl rfl)
  rw [List.append_nil] at hc
  exact hc.mpr trivial

theorem not_closesGroup (h : '\x7d' ∉ inside) : ¬ ClosesGroup inside := by
  induction inside with
  | nil => exact id
  | cons c inside ih =>
    obtain ⟨hc, hi⟩ := not_or.mp (List.mem_cons.not.mp h)
    rw [ClosesGroup.eq_3 _ _ (Ne.symm hc)]
    exact ih hi

theorem not_closed_left (hb : ¬ opening <:+: before) (hi : '\x7d' ∉ inside) :
    ¬ Closed (before ++ (opening ++ inside)) := by
  rw [closed_append hb (Or.inr ⟨inside, rfl⟩)]
  exact not_closesGroup hi

theorem closesGroup_append (ht : '\x7d' ∉ token) (rest : List Char) :
    ClosesGroup (token ++ '\x7d' :: rest) ↔ Closed rest := by
  induction token with
  | nil => rfl
  | cons c token ih =>
    obtain ⟨hc, ht⟩ := not_or.mp (List.mem_cons.not.mp ht)
    rw [List.cons_append, ClosesGroup.eq_3 _ _ (Ne.symm hc), ih ht]

theorem closed_group (hb : ¬ opening <:+: before) (ht : '\x7d' ∉ token) (rest : List Char) :
    Closed (before ++ (opening ++ (token ++ '\x7d' :: rest))) ↔ Closed rest := by
  rw [closed_append hb (Or.inr ⟨_, rfl⟩)]
  exact closesGroup_append ht rest

end Group

/-! ## Reading what was written -/

section Scan

variable {literal before token rest s : List Char}

theorem escaped?_eq_some_iff {escaped : List Char} :
    escaped? token = some escaped ↔ token = '!' :: escaped := by
  unfold escaped?
  split
  · simp
  · next h => simpa using h escaped

theorem escaped?_eq_none_iff : escaped? token = none ↔ token.head? ≠ some '!' := by
  unfold escaped?
  split
  · simp
  · next h =>
    cases token with
    | nil => simp
    | cons c token => simpa using fun hc => h token (by rw [hc])

/-- The first group is an escaped placeholder. -/
theorem nextGroup_escaped {escaped : List Char} (h : nextGroup s = some (before, token, rest))
    (he : escaped? token = some escaped) :
    s = before ++ (opening ++ ('!' :: escaped ++ '\x7d' :: rest)) ∧ ¬ opening <:+: before ∧
      '\x7d' ∉ escaped := by
  obtain ⟨rfl, hb, ht⟩ := nextGroup_eq_some_iff.mp h
  obtain rfl := escaped?_eq_some_iff.mp he
  exact ⟨rfl, hb, fun hmem => ht (List.mem_cons_of_mem _ hmem)⟩

theorem scan_of_none (h : nextGroup s = none) : scan literal s = flush (literal ++ s) := by
  rw [scan]
  split
  · rfl
  · next h' => cases h.symm.trans h'

theorem scan_escaped (hb : ¬ opening <:+: before) (ht : '\x7d' ∉ token) (literal rest : List Char) :
    scan literal (before ++ (opening ++ ('!' :: token ++ '\x7d' :: rest)))
      = scan (literal ++ (before ++ (opening ++ (token ++ ['\x7d'])))) rest := by
  have ht' : '\x7d' ∉ '!' :: token := by simpa using ht
  rw [scan]
  split
  · next h => cases h.symm.trans (nextGroup_group hb ht' rest)
  · next h =>
    cases h.symm.trans (nextGroup_group hb ht' rest)
    simp [escaped?]

theorem scan_placeholder (hb : ¬ opening <:+: before) (hn : IsName token)
    (literal rest : List Char) :
    scan literal (before ++ (opening ++ (token ++ '\x7d' :: rest)))
      = flush (literal ++ before) ++ .placeholder (String.ofList token) :: scan [] rest := by
  rw [scan]
  split
  · next h => cases h.symm.trans (nextGroup_group hb hn.1 rest)
  · next h =>
    cases h.symm.trans (nextGroup_group hb hn.1 rest)
    rw [escaped?_eq_none_iff.mpr hn.2]

/-- A literal text is read as it was. -/
theorem scan_escape (literal text : List Char) :
    scan literal (escape text) = flush (literal ++ text) := by
  induction text using groups_induction generalizing literal with
  | plain text h => rw [escape_plain h, scan_of_none (nextGroup_plain h)]
  | left before inside hb hi => rw [escape_left hb hi, scan_of_none (nextGroup_left hb hi)]
  | group before token rest hb ht ih =>
    rw [escape_group hb ht, scan_escaped hb ht, ih]
    simp

/-- A literal text that leaves no group open ends where the placeholder behind it begins. -/
theorem scan_escape_placeholder {text name : List Char} (hc : Closed text) (hn : IsName name)
    (literal rest : List Char) :
    scan literal (escape text ++ (opening ++ (name ++ '\x7d' :: rest)))
      = flush (literal ++ text) ++ .placeholder (String.ofList name) :: scan [] rest := by
  induction text using groups_induction generalizing literal with
  | plain text h => rw [escape_plain h, scan_placeholder h hn]
  | left before inside hb hi => exact absurd hc (not_closed_left hb hi)
  | group before token inside hb ht ih =>
    have hih := ih ((closed_group hb ht inside).mp hc)
      (literal ++ (before ++ (opening ++ (token ++ ['\x7d']))))
    rw [← scan_escaped hb ht] at hih
    rw [escape_group hb ht]
    simpa using hih

theorem flush_toList {text : String} (h : text ≠ "") : flush text.toList = [.literal text] := by
  rw [flush, if_neg (by simpa using h), String.ofList_toList]

/-- Segments that can be told apart are read as they were. -/
theorem scan_written : (segments : List Segment) → Canonical segments →
    scan [] (segments.flatMap Segment.written) = segments
  | [], _ => scan_of_none rfl
  | .placeholder name :: rest, ⟨hn, hrest⟩ => by
    have hc : Closed [] := trivial
    have hs := scan_escape_placeholder hc hn [] (rest.flatMap Segment.written)
    rw [List.append_nil, flush, if_pos rfl, scan_written rest hrest, String.ofList_toList] at hs
    simpa [Segment.written, escape] using hs
  | [.literal text], h => by
    have hs := scan_escape [] text.toList
    rw [List.nil_append, flush_toList h] at hs
    simpa [Segment.written] using hs
  | .literal text :: .placeholder name :: rest, ⟨ht, hc, hn, hrest⟩ => by
    have hs := scan_escape_placeholder hc hn [] (rest.flatMap Segment.written)
    rw [List.nil_append, flush_toList ht, scan_written rest hrest, String.ofList_toList] at hs
    simpa [Segment.written] using hs
  | .literal _ :: .literal _ :: _, h => h.elim

end Scan

/-! ## Writing what was read -/

/-- What is written in front of a text does not change how it is written, and leaves no group open
for it to close. -/
structure Complete (literal : List Char) : Prop where
  escape_append : ∀ s, escape (literal ++ s) = escape literal ++ escape s
  closed_append : ∀ s, Closed (literal ++ s) ↔ Closed s

section Write

variable {literal before token s : List Char}

theorem complete_nil : Complete [] := ⟨fun _ => rfl, fun _ => Iff.rfl⟩

theorem Complete.group (h : Complete literal) (hb : ¬ opening <:+: before) (ht : '\x7d' ∉ token) :
    Complete (literal ++ (before ++ (opening ++ (token ++ ['\x7d'])))) := by
  have hassoc : ∀ s, literal ++ (before ++ (opening ++ (token ++ ['\x7d']))) ++ s
      = literal ++ (before ++ (opening ++ (token ++ '\x7d' :: s))) := by simp
  refine ⟨fun s => ?_, fun s => ?_⟩
  · rw [hassoc, h.escape_append, h.escape_append, escape_group hb ht, escape_group hb ht, escape]
    simp
  · rw [hassoc, h.closed_append, closed_group hb ht]

theorem flatMap_flush (literal : List Char) :
    (flush literal).flatMap Segment.written = escape literal := by
  unfold flush
  split
  · next h => rw [h]; rfl
  · simp [Segment.written]

/-- **What was read is written as it was.** -/
theorem written_scan (literal s : List Char) (h : Complete literal) :
    (scan literal s).flatMap Segment.written = escape literal ++ s := by
  fun_induction scan literal s with
  | case1 literal s hg =>
    rw [flatMap_flush, h.escape_append, escape_of_nextGroup_eq_none hg]
  | case2 literal s before token rest hg escaped he ih =>
    obtain ⟨rfl, hb, ht⟩ := nextGroup_escaped hg he
    have hassoc : literal ++ before ++ opening ++ escaped ++ ['\x7d']
        = literal ++ (before ++ (opening ++ (escaped ++ ['\x7d']))) := by simp
    rw [hassoc] at ih ⊢
    rw [ih (h.group hb ht), h.escape_append, escape_group hb ht, escape]
    simp
  | case3 literal s before token rest hg he ih =>
    obtain ⟨rfl, hb, -⟩ := nextGroup_eq_some_iff.mp hg
    rw [List.flatMap_append, List.flatMap_cons, flatMap_flush, h.escape_append, escape_plain hb,
      ih complete_nil, Segment.written, String.toList_ofList, escape]
    simp

theorem canonical_flush (literal : List Char) : Canonical (flush literal) := by
  unfold flush
  split
  · trivial
  · next h => simpa [Canonical] using h

theorem canonical_flush_placeholder {literal name : List Char} {rest : List Segment}
    (hc : Closed literal) (hn : IsName name) (hrest : Canonical rest) :
    Canonical (flush literal ++ .placeholder (String.ofList name) :: rest) := by
  unfold flush
  split
  · exact ⟨by rwa [String.toList_ofList], hrest⟩
  · next h =>
    refine ⟨by simpa using h, ?_, ?_, hrest⟩
    · rwa [String.toList_ofList]
    · rwa [String.toList_ofList]

/-- **Segments that were read can be told apart.** -/
theorem canonical_scan (literal s : List Char) (h : Complete literal) :
    Canonical (scan literal s) := by
  fun_induction scan literal s with
  | case1 literal s hg => exact canonical_flush _
  | case2 literal s before token rest hg escaped he ih =>
    obtain ⟨-, hb, ht⟩ := nextGroup_escaped hg he
    refine ih ?_
    simpa using h.group hb ht
  | case3 literal s before token rest hg he ih =>
    obtain ⟨-, hb, ht⟩ := nextGroup_eq_some_iff.mp hg
    refine canonical_flush_placeholder ?_ ⟨ht, escaped?_eq_none_iff.mp he⟩ (ih complete_nil)
    exact (h.closed_append before).mpr (closed_plain hb)

end Write

/-! ## Templates -/

/-- **A template and its segments determine each other.** Every text is a template; its segments can
be told apart, and the text is written from them again. Whatever segments can be told apart are the
segments of what is written from them. -/
theorem parse_lossless : (∀ template, Canonical (parse template) ∧
      encode (parse template) = template) ∧
    ∀ segments, Canonical segments → parse (encode segments) = segments := by
  refine ⟨fun template => ⟨canonical_scan _ _ complete_nil, ?_⟩, fun segments h => ?_⟩
  · rw [encode, parse, written_scan _ _ complete_nil]
    exact String.ofList_toList
  · rw [encode, parse, String.toList_ofList]
    exact scan_written segments h

/-- A literal with a group, an opening dollar sign in front of a placeholder, two placeholders side
by side, one of them without a name, and a literal that leaves a group open. -/
theorem parse_lossless_of_groups :
    let segments : List Segment := [.literal "a$\x7b!b\x7d$", .placeholder "$\x7bc",
      .placeholder "", .literal "$\x7bd"]
    Canonical segments ∧ parse (encode segments) = segments := by
  intro segments
  have h : Canonical segments := by
    simp [segments, Canonical, Closed, ClosesGroup, IsName]
  exact ⟨h, parse_lossless.2 segments h⟩

end StackExpr.Sub
