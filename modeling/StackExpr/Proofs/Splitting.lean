import Mathlib.Data.List.Infix
import StackExpr.Proofs.PartialEvaluation
import StackExpr.Proofs.Results
/-!
# Splitting and joining

A text is split between the occurrences of a delimiter, which are found from left to right and do
not overlap. **Joining the pieces gives the text again** (`Text.intercalate_splitOn`), and no piece
holds the delimiter (`Text.not_infix_of_mem_splitOn`).

The other way round it takes more. When pieces that do not hold the delimiter are joined, an
occurrence of it might begin in a piece, or in a delimiter that was put in, and end in the next
delimiter. It then ends with the beginning of a delimiter. **The pieces of any list are found again
exactly if no proper beginning of the delimiter is an end of it** (`Text.borderless_iff`), as is the
case for single characters.

An empty delimiter splits a text into its characters, and joining these gives the text again too.
-/

namespace StackExpr

/-! ## Texts -/

namespace Text

variable {sep s before after piece : List Char} {pieces : List (List Char)}

theorem splitOn_of_none (h : cut sep s = none) : splitOn sep s = [s] := by
  unfold splitOn
  split
  · rfl
  · split
    · rfl
    · next h' => cases h.symm.trans h'

theorem splitOn_of_some (hsep : sep ≠ []) (h : cut sep s = some (before, after)) :
    splitOn sep s = before :: splitOn sep after := by
  rw [splitOn, dif_neg hsep]
  split
  · next h' => cases h.symm.trans h'
  · next h' =>
    cases h.symm.trans h'
    rfl

theorem splitOn_ne_nil (sep s : List Char) : splitOn sep s ≠ [] := by
  unfold splitOn
  split
  · exact List.cons_ne_nil _ _
  · split <;> exact List.cons_ne_nil _ _

/-- **The pieces of a text, joined, are the text.** -/
theorem intercalate_splitOn (sep s : List Char) : sep.intercalate (splitOn sep s) = s := by
  fun_induction splitOn sep s with
  | case1 s => exact List.intercalate_singleton
  | case2 s hsep h => exact List.intercalate_singleton
  | case3 s hsep before after h ih =>
    rw [List.intercalate_cons_of_ne_nil (splitOn_ne_nil sep after), ih, ← cut_eq h]

/-- **No piece of a text holds the delimiter.** -/
theorem not_infix_of_mem_splitOn (hsep : sep ≠ []) (h : piece ∈ splitOn sep s) :
    ¬ sep <:+: piece := by
  fun_induction splitOn sep s with
  | case1 s hempty => exact absurd hempty hsep
  | case2 s hsep hcut =>
    rw [List.mem_singleton.mp h]
    exact cut_eq_none_iff.mp hcut
  | case3 s hsep before after hcut ih =>
    rcases List.mem_cons.mp h with rfl | h
    · obtain ⟨-, hbefore⟩ := (cut_eq_some_iff hsep).mp hcut
      exact fun hinfix => hbefore (List.infix_append_of_infix_left hinfix)
    · exact ih h

/-! ## Delimiters without borders -/

/-- No part of the text is both a beginning and an end of it, but the empty one and the text
itself. -/
def Borderless (sep : List Char) : Prop :=
  ∀ part, part <+: sep → part <:+ sep → part = [] ∨ part = sep

instance (sep : List Char) : Decidable (Borderless sep) :=
  decidable_of_iff (∀ part ∈ sep.inits, part <:+ sep → part = [] ∨ part = sep)
    (forall_congr' fun part => imp_congr_left (List.mem_inits part sep))

theorem borderless_singleton (c : Char) : Borderless [c] := by
  intro part hstart _
  rcases List.prefix_cons_iff.mp hstart with rfl | ⟨rest, rfl, hrest⟩
  · exact Or.inl rfl
  · rw [List.prefix_nil.mp hrest]
    exact Or.inr rfl

/-- An occurrence of the delimiter does not end within the next one. -/
theorem Borderless.not_infix_append (hb : Borderless sep) (h : ¬ sep <:+: before) :
    ¬ sep <:+: before ++ sep.dropLast := by
  intro hinfix
  have hstart : sep.dropLast <+: sep := List.dropLast_prefix sep
  have hshorter : sep ≠ [] → sep.dropLast.length < sep.length := fun hne => by
    rw [List.length_dropLast]
    have := List.length_pos_iff.mpr hne
    omega
  rcases List.infix_append_iff_ne_nil.mp hinfix with
    hinfix | hinfix | ⟨left, part, -, hpart, heq, -, hbegin⟩
  · exact h hinfix
  · by_cases hne : sep = []
    · exact h (hne ▸ List.nil_infix)
    · exact absurd hinfix.length_le (Nat.not_le.mpr (hshorter hne))
  · -- What the occurrence has of the next delimiter is a beginning and an end.
    have hne : sep ≠ [] := by
      rintro rfl
      exact hpart (List.append_eq_nil_iff.mp heq.symm).2
    rcases hb part (hbegin.trans hstart) ⟨left, heq.symm⟩ with hempty | hwhole
    · exact hpart hempty
    · have hle := hbegin.length_le
      rw [hwhole] at hle
      exact absurd hle (Nat.not_le.mpr (hshorter hne))

/-- A first piece that does not hold a delimiter without borders is found again. -/
theorem Borderless.splitOn_intercalate_cons (hb : Borderless sep) (hsep : sep ≠ [])
    (hpiece : ¬ sep <:+: piece) (hne : pieces ≠ []) :
    splitOn sep (sep.intercalate (piece :: pieces))
      = piece :: splitOn sep (sep.intercalate pieces) := by
  have hcut : cut sep (piece ++ sep ++ sep.intercalate pieces)
      = some (piece, sep.intercalate pieces) :=
    (cut_eq_some_iff hsep).mpr ⟨rfl, hb.not_infix_append hpiece⟩
  rw [List.intercalate_cons_of_ne_nil hne, splitOn_of_some hsep hcut]

/-- **Pieces that do not hold a delimiter without borders are found again.** -/
theorem Borderless.splitOn_intercalate (hb : Borderless sep) (hsep : sep ≠ []) (hne : pieces ≠ [])
    (h : ∀ piece ∈ pieces, ¬ sep <:+: piece) : splitOn sep (sep.intercalate pieces) = pieces := by
  induction pieces with
  | nil => exact absurd rfl hne
  | cons piece pieces ih =>
    obtain ⟨hpiece, hpieces⟩ := List.forall_mem_cons.mp h
    by_cases hlast : pieces = []
    · subst hlast
      rw [List.intercalate_singleton]
      exact splitOn_of_none (cut_eq_none_iff.mpr hpiece)
    · rw [hb.splitOn_intercalate_cons hsep hpiece hlast, ih hlast hpieces]

/-- Where a beginning of the delimiter is an end of it, some pieces are not found again. -/
theorem exists_splitOn_intercalate_ne (hsep : sep ≠ []) (hb : ¬ Borderless sep) :
    ∃ piece, ¬ sep <:+: piece ∧ splitOn sep (sep.intercalate [piece, []]) ≠ [piece, []] := by
  unfold Borderless at hb
  push Not at hb
  obtain ⟨part, ⟨rest, hrest⟩, ⟨piece, hpiece⟩, hne, hproper⟩ := hb
  have hlength : piece.length < sep.length := by
    rw [← hpiece, List.length_append]
    have := List.length_pos_iff.mpr hne
    omega
  refine ⟨piece, fun hinfix => absurd hinfix.length_le (Nat.not_le.mpr hlength), fun heq => ?_⟩
  -- The text begins with the delimiter, so its first piece is empty.
  have htext : sep.intercalate [piece, []] = [] ++ sep ++ rest := by
    rw [List.intercalate_cons_cons, List.intercalate_singleton, List.append_nil, List.nil_append]
    conv_lhs => rw [← hrest]
    rw [← List.append_assoc, hpiece]
  have hcut : cut sep ([] ++ sep ++ rest) = some ([], rest) := by
    refine (cut_eq_some_iff hsep).mpr ⟨rfl, fun hinfix => ?_⟩
    have hle := hinfix.length_le
    rw [List.nil_append, List.length_dropLast] at hle
    omega
  rw [htext, splitOn_of_some hsep hcut] at heq
  obtain ⟨rfl, -⟩ := List.cons.inj heq
  exact hproper hpiece

/-- **The pieces of all lists are found again exactly if no proper beginning of the delimiter is an
end of it.** -/
theorem borderless_iff (hsep : sep ≠ []) : Borderless sep ↔ ∀ pieces, pieces ≠ [] →
    (∀ piece ∈ pieces, ¬ sep <:+: piece) → splitOn sep (sep.intercalate pieces) = pieces := by
  refine ⟨fun hb pieces hne h => hb.splitOn_intercalate hsep hne h, fun h => ?_⟩
  by_contra hb
  obtain ⟨piece, hpiece, hne⟩ := exists_splitOn_intercalate_ne hsep hb
  refine hne (h _ (List.cons_ne_nil _ _) ?_)
  simpa [hpiece] using hsep

/-- The characters of a text, joined with nothing between them, are the text. -/
theorem intercalate_chars (s : List Char) : [].intercalate (chars s) = s := by
  induction s with
  | nil => rfl
  | cons c s ih =>
    cases s with
    | nil => exact List.intercalate_singleton
    | cons c' s =>
      rw [chars, List.map_cons] at ih ⊢
      rw [List.map_cons, List.intercalate_cons_cons, ih]
      rfl

end Text

/-! ## Pieces and what is joined -/

theorem pieces_of_ne {delimiter : String} (h : delimiter ≠ "") (s : String) :
    pieces delimiter s = (Text.splitOn delimiter.toList s.toList).map String.ofList := by
  rw [pieces, if_neg h]

theorem toList_ofList_map (texts : List (List Char)) :
    (texts.map String.ofList).map String.toList = texts := by
  rw [List.map_map]
  exact (List.map_congr_left fun text _ => String.toList_ofList).trans texts.map_id

theorem intercalate_pieces (delimiter s : String) :
    delimiter.intercalate (pieces delimiter s) = s := by
  apply String.toList_inj.mp
  rw [String.toList_intercalate, pieces, toList_ofList_map]
  split
  · next h =>
    subst h
    exact Text.intercalate_chars s.toList
  · exact Text.intercalate_splitOn _ _

theorem not_infix_of_mem_pieces {delimiter s piece : String} (h : delimiter ≠ "")
    (hp : piece ∈ pieces delimiter s) : ¬ delimiter.toList <:+: piece.toList := by
  rw [pieces_of_ne h] at hp
  obtain ⟨text, htext, rfl⟩ := List.mem_map.mp hp
  rw [String.toList_ofList]
  exact Text.not_infix_of_mem_splitOn (by simpa using h) htext

/-- Texts that are joined are found again just when their characters are. -/
theorem pieces_intercalate_iff {delimiter : String} (h : delimiter ≠ "") (texts : List String) :
    pieces delimiter (delimiter.intercalate texts) = texts ↔
      Text.splitOn delimiter.toList (delimiter.toList.intercalate (texts.map String.toList))
        = texts.map String.toList := by
  rw [pieces_of_ne h, String.toList_intercalate]
  constructor
  · intro heq
    have hchars := congrArg (List.map String.toList) heq
    rwa [toList_ofList_map] at hchars
  · intro heq
    rw [heq, List.map_map]
    exact (List.map_congr_left fun text _ => String.ofList_toList).trans texts.map_id

theorem textsOf_string (f : Function) (texts : List String) :
    textsOf f (texts.map .string) = .ok texts := by
  induction texts with
  | nil => rfl
  | cons text texts ih =>
    rw [List.map_cons, textsOf, ih]
    rfl

theorem joined_string (delimiter : String) (texts : List String) :
    joined delimiter (texts.map .string) = .ok (.string (delimiter.intercalate texts)) := by
  rw [joined, textsOf_string]
  rfl

/-! ## Evaluations -/

/-- A call as it is written, with a list of arguments. -/
def Function.written (f : Function) (args : List Json) : Json := .object [(f.name, .array args)]

theorem Expr.ofJson_written (f : Function) (args : List Json) :
    ofJson (f.written args) = call f (args.map fun v => (v, ofJson v)) := by
  rw [Function.written, ofJson_call, arguments_array]

/-- A list of texts that is joined. -/
theorem Expr.offline?_join (r : Resolver) (delimiter : String) (texts : List String) :
    ((ofJson (Function.join.written [.string delimiter, .array (texts.map .string)])).evaluate
      r).offline? = some (.ok (.string (delimiter.intercalate texts))) := by
  have htexts : Json.CallFree (.array (texts.map .string)) := callFreeElements_string texts
  rw [ofJson_written]
  show (Job.bind (evaluate r (ofJson (.array (texts.map .string)))) _).offline? = _
  rw [Job.offline?_bind, offline?_evaluate_ofJson r _ htexts]
  show (Job.ofExcept (joined delimiter (texts.map .string))).offline? = _
  rw [joined_string]
  rfl

namespace Job

variable {α : Type}

/-- A job that needs nothing from outside runs to its result, and the session is as before. -/
theorem run_of_offline? {job : Job α} {r : Except EvalError α} (h : job.offline? = some r)
    (client : Client) (s : Session) : job.run client s = (r.mapError .evaluation, s) := by
  obtain ⟨n, hn⟩ : ∃ n, patience = n + 1 := ⟨UInt64.size - 1, rfl⟩
  rw [run, hn, rounds_singleton, step_of_offline? client job h s,
    rounds_of_ended (List.forall_mem_singleton.mpr rfl)]
  rfl

end Job

namespace Evaluator

/-- Over any cloud and in any session, the evaluator comes to this value of an expression at once
and asks nothing. In a run, where parts may go on in any order, it does nothing else either. -/
def ComesTo (ev : Evaluator) (v w : Json) : Prop :=
  ∀ client : Client, (∀ s, (ev.evaluate v).run client s = (.ok w, s)) ∧
    ∀ log tasks s job own, Run client log tasks s → ⟨.evaluate ev v, job, own⟩ ∈ tasks →
      own = [] ∧ ∀ r, job = .done r → r = .ok w

theorem comesTo_of_offline? {ev : Evaluator} {v w : Json}
    (h : (ev.evaluate v).offline? = some (.ok w)) : ev.ComesTo v w := by
  refine fun client => ⟨fun s => Job.run_of_offline? h client s, ?_⟩
  intro log tasks s job own hr ht
  have hop : (Operation.evaluate ev v).job.offline? = some (.ok w) := h
  obtain ⟨hown, hended⟩ := hr.offline ht hop
  refine ⟨hown, fun r hdone => ?_⟩
  obtain ⟨ended, rfl, hvalue⟩ := hended r hdone
  cases ended with
  | error e => cases hvalue
  | ok w' =>
    cases hvalue
    rfl

theorem ComesTo.unique {ev : Evaluator} {v w w' : Json} (h : ev.ComesTo v w)
    (h' : ev.ComesTo v w') : w = w' := by
  have hrun := ((h ⟨{}, .none⟩).1 {}).symm.trans ((h' ⟨{}, .none⟩).1 {})
  exact Except.ok.inj (Prod.mk.inj hrun).1

/-- A text that is split. -/
theorem offline?_split (ev : Evaluator) (delimiter s : String) :
    (ev.evaluate (Function.split.written [.string delimiter, .string s])).offline?
      = some (.ok (.array ((pieces delimiter s).map .string))) := by
  rw [evaluate, evaluateAt, Expr.ofJson_written]
  rfl

/-- A text that is split and joined again. -/
theorem offline?_join_split (ev : Evaluator) (delimiter s : String) :
    (ev.evaluate (Function.join.written [.string delimiter,
      Function.split.written [.string delimiter, .string s]])).offline?
      = some (.ok (.string s)) := by
  rw [evaluate, evaluateAt, Expr.ofJson_written]
  show (Job.ofExcept (joined delimiter ((pieces delimiter s).map .string))).offline? = _
  rw [joined_string, intercalate_pieces]
  rfl

/-- Texts that are joined and split again. -/
theorem offline?_split_join (ev : Evaluator) (delimiter : String) (texts : List String) :
    (ev.evaluate (Function.split.written [.string delimiter,
      Function.join.written [.string delimiter, .array (texts.map .string)]])).offline?
      = some (.ok (.array ((pieces delimiter (delimiter.intercalate texts)).map .string))) := by
  rw [evaluate, evaluateAt, Expr.ofJson_written]
  show (Job.bind (Expr.evaluate _ (Expr.ofJson (Function.join.written _))) _).offline? = _
  rw [Job.offline?_bind, Expr.offline?_join]
  rfl

/-- **Splitting and joining undo each other.** A text that is split is the same text when its pieces
are joined with the same delimiter, and no piece holds the delimiter unless that is empty. Texts
that do not hold a delimiter are the same texts, in order and with the empty ones among them, when
they are joined with it and split again; this is so for all lists of such texts just when no proper
beginning of the delimiter is an end of it, as is the case for a single character. -/
theorem split_join_inverse (ev : Evaluator) (delimiter : String) :
    (∀ s : String, ∃ parts : List String,
      ev.ComesTo (Function.split.written [.string delimiter, .string s])
        (.array (parts.map .string)) ∧
      ev.ComesTo (Function.join.written [.string delimiter,
        Function.split.written [.string delimiter, .string s]]) (.string s) ∧
      (delimiter ≠ "" → ∀ part ∈ parts, ¬ delimiter.toList <:+: part.toList)) ∧
    (delimiter ≠ "" → (Text.Borderless delimiter.toList ↔
      ∀ texts : List String, texts ≠ [] → (∀ t ∈ texts, ¬ delimiter.toList <:+: t.toList) →
        ev.ComesTo (Function.split.written [.string delimiter,
          Function.join.written [.string delimiter, .array (texts.map .string)]])
          (.array (texts.map .string)))) ∧
    ∀ c, delimiter.toList = [c] → Text.Borderless delimiter.toList := by
  refine ⟨fun s => ⟨pieces delimiter s, ?_, ?_, fun hd part hpart => ?_⟩, fun hd => ?_,
    fun c hc => hc ▸ Text.borderless_singleton c⟩
  · exact comesTo_of_offline? (ev.offline?_split delimiter s)
  · exact comesTo_of_offline? (ev.offline?_join_split delimiter s)
  · exact not_infix_of_mem_pieces hd hpart
  · have hsplit := fun texts => comesTo_of_offline? (ev.offline?_split_join delimiter texts)
    rw [Text.borderless_iff (by simpa using hd)]
    constructor
    · intro h texts hne htexts
      have heq : pieces delimiter (delimiter.intercalate texts) = texts := by
        refine (pieces_intercalate_iff hd texts).mpr (h _ (by simpa using hne) ?_)
        exact List.forall_mem_map.mpr htexts
      have hcomes := hsplit texts
      rwa [heq] at hcomes
    · intro h texts hne htexts
      -- The characters are those of texts, whose value is the list that they are found in.
      have hcomes := h (texts.map String.ofList) (by simpa using hne) (by simpa using htexts)
      have heq := (hsplit (texts.map String.ofList)).unique hcomes
      have hpieces : Function.Injective Json.string := fun _ _ he => Json.string.inj he
      have hfound := List.map_injective_iff.mpr hpieces (Json.array.inj heq)
      rwa [pieces_intercalate_iff hd, toList_ofList_map] at hfound

/-- A delimiter of several characters, texts that end or begin with a part of it, and empty texts
at both ends. -/
theorem split_join_inverse_of_arrow :
    let texts := ["", "=", ">=", "", "a", ">", ""]
    Text.Borderless "=>".toList ∧ (∀ t ∈ texts, ¬ "=>".toList <:+: t.toList) ∧
      (Evaluator.first []).ComesTo (Function.split.written [.string "=>",
        Function.join.written [.string "=>", .array (texts.map .string)]])
        (.array (texts.map .string)) := by
  intro texts
  have hb : Text.Borderless "=>".toList := by decide +kernel
  have htexts : ∀ t ∈ texts, ¬ "=>".toList <:+: t.toList := by decide +kernel
  refine ⟨hb, htexts, ?_⟩
  exact (((Evaluator.first []).split_join_inverse "=>").2.1 (by decide)).mp hb texts
    (List.cons_ne_nil _ _) htexts

end Evaluator

end StackExpr
