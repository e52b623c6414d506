import Mathlib.Data.List.TakeWhile
import StackExpr.Proofs.Job.Alone
import StackExpr.Proofs.Splitting
/-!
# Positions as values and as text

A position in a list may be given as a number or as text. **A scalar gives the same position as its
text does** (`Json.index?_of_text?`): the digits of an integer are read back as it, and the text of
any other number has a character that no position is written with, a minus sign, a point or the mark
of an exponent. So do the texts of the booleans; the text of `null` is empty.

Joining a list of a single value gives the text of this value. So **an index may be joined before it
is used** (`Evaluator.index_as_text`): whatever expressions the index and the list are, the same
element is selected, or none is either way.
-/

namespace StackExpr

/-! ## Characters of positions -/

namespace Decimal

theorem isDigit_of_foldDigits {acc n : Nat} {s : List Char} (h : foldDigits acc s = some n) :
    ∀ c ∈ s, isDigit c = true := by
  induction s generalizing acc with
  | nil => exact fun c hc => absurd hc List.not_mem_nil
  | cons c cs ih =>
    obtain ⟨d, hd, h⟩ := Option.bind_eq_some_iff.mp h
    exact List.forall_mem_cons.mpr ⟨by rw [isDigit, hd]; rfl, ih h⟩

/-- What shows a number of 64 bits has no characters but digits and the plus sign. -/
theorem isDigit_of_word64? {s : List Char} {n : Nat} (h : word64? s = some n) {c : Char}
    (hc : c ∈ s) (hplus : c ≠ '+') : isDigit c = true := by
  have hdigits : ∀ {cs : List Char}, (ofDigits? cs).filter (· < UInt64.size) = some n →
      ∀ c ∈ cs, isDigit c = true := by
    intro cs h
    obtain ⟨hn, -⟩ := Option.filter_eq_some_iff.mp h
    cases cs with
    | nil => cases hn
    | cons c cs => exact isDigit_of_foldDigits hn
  unfold word64? at h
  split at h
  · next cs =>
    rcases List.mem_cons.mp hc with rfl | hc
    · exact absurd rfl hplus
    · exact hdigits h c hc
  · exact hdigits h c hc

theorem isBlank_of_isDigit {c : Char} (h : isDigit c = true) : Text.isBlank c = false := by
  unfold isDigit digitValue? at h
  split at h
  · simp only [Text.isBlank, Bool.or_eq_false_iff, Bool.and_eq_false_iff, decide_eq_false_iff_not,
      beq_eq_false_iff_ne]
    omega
  · cases h

end Decimal

namespace Text

/-- Trimming takes only blanks away. -/
theorem mem_trim {s : List Char} {c : Char} (h : c ∈ s) (hc : isBlank c = false) : c ∈ trim s := by
  have hdrop : ∀ {s : List Char}, c ∈ s → c ∈ s.dropWhile isBlank := by
    intro s h
    rw [← List.takeWhile_append_dropWhile (p := isBlank) (l := s)] at h
    rcases List.mem_append.mp h with h | h
    · rw [List.mem_takeWhile_imp h] at hc
      cases hc
    · exact h
  exact List.mem_reverse.mpr (hdrop (List.mem_reverse.mpr (hdrop h)))

/-- A text without blanks has nothing to trim. -/
theorem trim_eq_self {s : List Char} (h : ∀ c ∈ s, isBlank c = false) : trim s = s := by
  have hdrop : ∀ {s : List Char}, (∀ c ∈ s, isBlank c = false) → s.dropWhile isBlank = s :=
    fun h => List.dropWhile_eq_self_iff.mpr fun hl => by simp [h _ (List.getElem_mem hl)]
  rw [trim, hdrop h, hdrop fun c hc => h c (List.mem_reverse.mp hc), List.reverse_reverse]

end Text

/-! ## Numbers -/

namespace Binary64

theorem mark_mem_place (l : Layout) (digits : List Char) (point : Int) :
    '.' ∈ l.place digits point ∨ 'e' ∈ l.place digits point := by
  unfold Layout.place
  split
  · split <;> exact Or.inl (by simp)
  · exact Or.inr (by simp)

/-- A binary64 number is never written with digits alone. -/
theorem mark_mem_text (l : Layout) (x : Binary64) : '.' ∈ x.text l ∨ 'e' ∈ x.text l := by
  unfold text
  simp only
  by_cases hz : x.isZero = true
  · rw [if_pos hz]
    exact Or.inl (List.mem_append_right _ (by decide))
  · rw [if_neg hz]
    exact (mark_mem_place l _ _).imp (List.mem_append_right _) (List.mem_append_right _)

end Binary64

namespace Json

/-- A character that is no digit, no plus sign and not blank stands in no text of a position. -/
theorem index?_eq_none_of_mem {text : List Char} {c : Char} (h : c ∈ text)
    (hc : Decimal.isDigit c = false ∧ c ≠ '+' ∧ Text.isBlank c = false) :
    (string (String.ofList text)).index? = none := by
  obtain ⟨hdigit, hplus, hblank⟩ := hc
  rw [index?, String.toList_ofList, Option.eq_none_iff_forall_ne_some]
  intro n hn
  have hc := Decimal.isDigit_of_word64? hn (Text.mem_trim h hblank) hplus
  rw [hdigit] at hc
  cases hc

/-- The digits of a number that fits are read back as it. -/
theorem index?_digits {n : Nat} (h : n < UInt64.size) :
    (string (String.ofList (Decimal.digits n))).index? = some n := by
  have hblank : ∀ c ∈ Decimal.digits n, Text.isBlank c = false := fun c hc =>
    Decimal.isBlank_of_isDigit (Decimal.isDigit_of_foldDigits (Decimal.foldDigits_digits n) c hc)
  rw [index?, String.toList_ofList, Text.trim_eq_self hblank, Decimal.word64?_digits h]

theorem index?_number (n : Number) :
    (string (String.ofList (n.text Binary64.jsonLayout))).index? = n.toNat? := by
  cases n with
  | real x =>
    rcases Binary64.mark_mem_text Binary64.jsonLayout x with h | h
    · exact index?_eq_none_of_mem h (by decide)
    · exact index?_eq_none_of_mem h (by decide)
  | integer n hn =>
    rw [Number.text, Decimal.ofInt, Number.toNat?]
    by_cases h : 0 ≤ n
    · rw [if_neg (by omega), if_pos h, show n.natAbs = n.toNat by omega]
      exact index?_digits (by simp only [UInt64.size]; omega)
    · rw [if_pos (by omega), if_neg h]
      exact index?_eq_none_of_mem List.mem_cons_self (by decide)

/-- **A scalar gives the same position as its text.** -/
theorem index?_of_text? {v : Json} {text : String} (h : v.text? = some text) :
    (string text).index? = v.index? := by
  cases v with
  | null => cases h; rfl
  | bool b => cases h; cases b <;> rfl
  | number n => cases h; exact index?_number n
  | string s => cases h; rfl
  | array elements => cases h
  | object fields => cases h

theorem index?_eq_none_of_text? {v : Json} (h : v.text? = none) : v.index? = none := by
  cases v with
  | array elements => rfl
  | object fields => rfl
  | _ => cases h

end Json

/-! ## Selections -/

namespace Expr

/-- What a selection does with the value of its index. -/
def selectAt (r : Resolver) (items : Expr) (index : Json) : Job Json := do
  let i ← Job.ofExcept (Function.select.indexOf index)
  let vs ← Job.ofExcept (Function.select.listOf (← evaluate r items))
  Job.ofExcept (selected i vs)

/-- A selection goes on with the value of its index. -/
theorem evaluate_select_written (r : Resolver) (e items : Json) :
    (ofJson (Function.select.written [e, items])).evaluate r
      = ((ofJson e).evaluate r).bind (selectAt r (ofJson items)) := by
  rw [ofJson_written]
  rfl

/-- A selection whose index is joined gathers the index alone and goes on with its text. -/
theorem evaluate_select_joined (r : Resolver) (e items : Json) :
    (ofJson (Function.select.written [Function.join.written [.string "", .array [e]],
      items])).evaluate r
      = .gather [(ofJson e).evaluate r] fun vs =>
          (Job.ofExcept (joined "" vs)).bind (selectAt r (ofJson items)) := by
  rw [ofJson_written, List.map_cons, ofJson_written]
  rfl

theorem joined_singleton {v : Json} {text : String} (h : v.text? = some text) :
    joined "" [v] = .ok (.string text) := by
  have htexts : textsOf .join [v] = .ok [text] := by
    rw [textsOf, h]
    rfl
  rw [joined, htexts]
  exact congrArg (Except.ok ∘ Json.string) (by simp)

theorem selectAt_of_index? {index index' : Json} (h : index.index? = index'.index?)
    (r : Resolver) (items : Expr) : selectAt r items index = selectAt r items index' ∨
      ∃ e e', selectAt r items index = Job.fail e ∧ selectAt r items index' = Job.fail e' := by
  unfold selectAt Function.indexOf
  rw [h]
  cases index'.index? with
  | some i => exact Or.inl rfl
  | none => exact Or.inr ⟨_, _, rfl, rfl⟩

/-- **With an index or with its text, a selection goes on alike.** -/
theorem goOnAlike_selectAt (r : Resolver) (items : Expr) :
    Job.GoOnAlike (selectAt r items)
      fun vs => (Job.ofExcept (joined "" vs)).bind (selectAt r items) := by
  intro v
  cases ht : v.text? with
  | some text =>
    simp only [joined_singleton ht]
    exact selectAt_of_index? (Json.index?_of_text? ht).symm r items
  | none =>
    -- What has no text gives no position either.
    refine Or.inr ?_
    have hjoined : ∃ e, joined "" [v] = .error e := ⟨_, by rw [joined, textsOf, ht]; rfl⟩
    obtain ⟨e, he⟩ := hjoined
    simp only [he]
    unfold selectAt Function.indexOf
    rw [Json.index?_eq_none_of_text? ht]
    exact ⟨_, _, rfl, rfl⟩

end Expr

/-! ## Expressions in the place of others -/

/-- Over a cloud, an evaluator comes to the same with either of two expressions. Run in the same
session they end alike and leave the same session; and whatever happens in a session, where one of
them has ended, the other can have ended alike in its place. -/
structure Evaluator.Interchangeable (ev : Evaluator) (client : Client) (v w : Json) : Prop where
  run (s : Session) : ((ev.evaluate v).run client s).2 = ((ev.evaluate w).run client s).2 ∧
    EndsAlike ((ev.evaluate v).run client s).1 ((ev.evaluate w).run client s).1
  forth {log : List Event} {own : List Event} {others : Multiset Task} {s : Session}
    {r : Except Failure Json}
    (h : Run client log (⟨.evaluate ev v, .done r, own⟩ ::ₘ others) s) :
    ∃ r', EndsAlike r r' ∧ Run client log (⟨.evaluate ev w, .done r', own⟩ ::ₘ others) s
  back {log : List Event} {own : List Event} {others : Multiset Task} {s : Session}
    {r' : Except Failure Json}
    (h : Run client log (⟨.evaluate ev w, .done r', own⟩ ::ₘ others) s) :
    ∃ r, EndsAlike r r' ∧ Run client log (⟨.evaluate ev v, .done r, own⟩ ::ₘ others) s

namespace Evaluator

/-- Expressions are interchangeable if one goes on with a part and the other gathers it alone. -/
theorem interchangeable_of_goOnAlike {ev : Evaluator} {v w : Json} (part : Job Json)
    {f : Json → Job Json} {g : List Json → Job Json} (hfg : Job.GoOnAlike f g)
    (hv : ev.evaluate v = part.bind f) (hw : ev.evaluate w = .gather [part] g) (client : Client) :
    ev.Interchangeable client v w := by
  have hmatched : Job.Matched f g (ev.evaluate v) (ev.evaluate w) := by
    rw [hv, hw]
    exact .underWay part
  refine ⟨fun s => ?_, fun h => ?_, fun h => ?_⟩
  · rw [hv, hw]
    exact Job.endsAlike_run client hfg part s
  · obtain ⟨b, hb, h'⟩ := h.exchanged (.evaluate ev w)
      (fun a b : Job Json => Job.Matched f g a b) hmatched fun hm hmove => hm.exists_moves hfg hmove
    obtain ⟨r', hms, hr⟩ := hb.exists_end client hfg
    exact ⟨r', hr, by simpa using h'.moves hms⟩
  · obtain ⟨a, ha, h'⟩ := h.exchanged (.evaluate ev v)
      (fun b a : Job Json => Job.Matched f g a b) hmatched
      fun hm hmove => hm.exists_moves_back hfg hmove
    obtain ⟨r, rfl, hr⟩ := ha.ended
    exact ⟨r, hr, h'⟩

/-- **An index means the same as a value and as text.** A scalar gives the same position as its
text. So whatever the expressions of the index and of the list are, a selection comes to the same
whether the index is joined with nothing or not: to the same element, or to none. -/
theorem index_as_text (ev : Evaluator) :
    (∀ (v : Json) (text : String), v.text? = some text → (Json.string text).index? = v.index?) ∧
    ∀ (e items : Json) (client : Client), ev.Interchangeable client
      (Function.select.written [e, items])
      (Function.select.written [Function.join.written [.string "", .array [e]], items]) := by
  refine ⟨fun _ _ h => Json.index?_of_text? h, fun e items client => ?_⟩
  let r := ev.resolver (evaluateAt ev.depth)
  refine interchangeable_of_goOnAlike ((Expr.ofJson e).evaluate r)
    (Expr.goOnAlike_selectAt r (Expr.ofJson items)) ?_ ?_ client
  · exact Expr.evaluate_select_written r e items
  · exact Expr.evaluate_select_joined r e items

/-- The largest integer and a negative zero, as values and as text, and a selection with an index
that has blanks and a sign. -/
theorem index_as_text_of_largest :
    let largest : Json := .number (.integer 18446744073709551615 (by decide))
    let negativeZero : Json := .number (.real Binary64.zero.neg)
    let padded : Json := .string "\t+1 "
    let items : Json := .array [.null, .bool true]
    largest.text? = some "18446744073709551615" ∧
      (Json.string "18446744073709551615").index? = some 18446744073709551615 ∧
      negativeZero.text? = some "-0.0" ∧ (Json.string "-0.0").index? = none ∧
      padded.index? = some 1 ∧ (Evaluator.first []).Interchangeable ⟨{}, .none⟩
        (Function.select.written [padded, items])
        (Function.select.written [Function.join.written [.string "", .array [padded]], items]) := by
  intro largest negativeZero padded items
  obtain ⟨hindex, hselect⟩ := index_as_text (Evaluator.first [])
  have hlargest : largest.text? = some "18446744073709551615" := by decide +kernel
  have hzero : negativeZero.text? = some "-0.0" := by decide +kernel
  exact ⟨hlargest, hindex largest _ hlargest, hzero, hindex negativeZero _ hzero, by decide +kernel,
    hselect padded items _⟩

end Evaluator

end StackExpr
