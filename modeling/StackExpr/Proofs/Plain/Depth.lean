import StackExpr.Proofs.NestedStack
import StackExpr.Proofs.Plain
/-!
# Enough depth

A plain evaluation may lead through a number of expressions, one within the other. More of them
never change a value that was reached with fewer (`Plain.evaluateAt_mono`), and there is a number
from which on more do not even give new values (`Plain.evaluateAt_eq`), the one that evaluators work
with: **a value that can be reached at all is reached within the depth of the evaluator**
(`Plain.gives_iff`).

The reason is counted, not traced: from one depth to the next either one more of the stack's own
expressions gets a value — its outputs, and the parameters of the stacks nested in it — or none
does, and then none ever will.
-/

namespace StackExpr.Plain

variable {α β : Type}

/-! ## More depth, more values -/

/-- Where there is a value, there is the same value. -/
def Below (o o' : Option α) : Prop := ∀ a, o = some a → o' = some a

theorem Below.refl (o : Option α) : Below o o := fun _ h => h

theorem Below.of_none (o : Option α) : Below none o := fun _ h => nomatch h

theorem Below.join {o o' : Option (Option α)} (h : Below o o') : Below o.join o'.join := by
  intro a ha
  rw [Option.join_eq_some_iff] at ha ⊢
  exact h _ ha

theorem Below.bind {o o' : Option α} {f g : α → Option β} (h : Below o o')
    (hf : ∀ a, Below (f a) (g a)) : Below (o.bind f) (o'.bind g) := by
  intro b hb
  obtain ⟨a, ha, hfa⟩ := Option.bind_eq_some_iff.mp hb
  rw [h a ha]
  exact hf a b hfa

/-- What one meaning tells, the other tells as well. -/
structure Meaning.Below (m m' : Meaning) : Prop where
  ref : ∀ id, Plain.Below (m.ref id) (m'.ref id)
  getAtt : ∀ id attr, Plain.Below (m.getAtt id attr) (m'.getAtt id attr)
  importValue : ∀ name, Plain.Below (m.importValue name) (m'.importValue name)

section Expr

variable {m m' : Meaning}

theorem substitute_mono (hm : m.Below m') (vars : Dict Json) : (segments : List Sub.Segment) →
    Below (substitute m vars segments) (substitute m' vars segments)
  | [] => .refl _
  | .literal _ :: segments => (substitute_mono hm vars segments).bind fun _ => .refl _
  | .placeholder name :: segments => by
    have htarget : Below ((vars.get? name).elim (m.target (.ofPlaceholder name)) some)
        ((vars.get? name).elim (m'.target (.ofPlaceholder name)) some) := by
      cases vars.get? name with
      | some v => exact .refl _
      | none =>
        cases Sub.Target.ofPlaceholder name with
        | ref id => exact hm.ref id
        | getAtt id attr => exact hm.getAtt id _
    exact htarget.bind fun v => (Below.refl _).bind fun text =>
      (substitute_mono hm vars segments).bind fun _ => .refl _

mutual

theorem value_mono (hm : m.Below m') : (e : Expr) → Below (value m e) (value m' e)
  | .scalar _ => .refl _
  | .list elements => (values_mono hm elements).bind fun _ => .refl _
  | .record fields => (fieldValues_mono hm fields).bind fun _ => .refl _
  | .ref id => hm.ref id
  | .getAtt id => hm.getAtt id none
  | .getAttOf id attr =>
    (value_mono hm attr).bind fun _ => (Below.refl _).bind fun _ => hm.getAtt id _
  | .join _ items => (value_mono hm items).bind fun _ => .refl _
  | .split _ text => (value_mono hm text).bind fun _ => .refl _
  | .select index items =>
    (value_mono hm index).bind fun _ => (Below.refl _).bind fun _ =>
      (value_mono hm items).bind fun _ => .refl _
  | .sub _ => (substitute_mono hm _ _).bind fun _ => .refl _
  | .subWith _ bindings =>
    (value_mono hm bindings).bind fun _ => (Below.refl _).bind fun _ =>
      (substitute_mono hm _ _).bind fun _ => .refl _
  | .importValue name =>
    (value_mono hm name).bind fun _ => (Below.refl _).bind fun _ => hm.importValue _
  | .invalid _ => .refl _

theorem values_mono (hm : m.Below m') : (es : List Expr) → Below (values m es) (values m' es)
  | [] => .refl _
  | e :: es => (value_mono hm e).bind fun _ => (values_mono hm es).bind fun _ => .refl _

theorem fieldValues_mono (hm : m.Below m') :
    (fields : List (String × Expr)) → Below (fieldValues m fields) (fieldValues m' fields)
  | [] => .refl _
  | (_, e) :: fields =>
    (value_mono hm e).bind fun _ => (fieldValues_mono hm fields).bind fun _ => .refl _

end

end Expr

section Stack

variable {cloud : Cloud} {evaluate evaluate' : Evaluate}

theorem child?_mono {st : Stack} (h : ∀ e, Below (evaluate st e) (evaluate' st e)) (id : String) :
    Below (child? evaluate st id) (child? evaluate' st id) := by
  unfold child?
  split
  · refine Below.bind ?_ fun _ => .refl _
    unfold nestedParameters
    split
    · exact .refl _
    · exact (h _).bind fun _ => .refl _
  · exact .refl _

/-- A nested stack is in the region of the stack around it. -/
theorem region_of_child? {st child : Stack} {id : String}
    (h : child? evaluate st id = some (some child)) : child.context.region = st.context.region := by
  unfold child? at h
  split at h
  · obtain ⟨parameters, -, hp⟩ := Option.bind_eq_some_iff.mp h
    obtain rfl := Option.some.inj (Option.some.inj hp)
    rfl
  · cases h

/-- Only expressions in the region of the stack count for an attribute of a deployed resource. -/
theorem deployedAttribute?_mono {st : Stack} (h : ∀ st', st'.context.region = st.context.region →
      ∀ e, Below (evaluate st' e) (evaluate' st' e)) (id : String) (attr : Option String)
    (resource : StackResource) : Below (deployedAttribute? evaluate st id attr resource)
      (deployedAttribute? evaluate' st id attr resource) := by
  unfold deployedAttribute?
  split
  · intro v hv
    obtain ⟨child, hc, hv⟩ := Option.bind_eq_some_iff.mp hv
    refine Option.bind_eq_some_iff.mpr ⟨child, child?_mono (h st rfl) id child hc, ?_⟩
    cases child with
    | none => exact hv
    | some child => exact (h child (region_of_child? hc) _).bind (fun _ => .refl _) v hv
  · exact .refl _
  · exact .refl _

theorem attribute?_mono (h : ∀ st e, Below (evaluate st e) (evaluate' st e)) (st : Stack)
    (id : String) (attr : Option String) :
    Below (attribute? cloud evaluate st id attr) (attribute? cloud evaluate' st id attr) := by
  unfold attribute?
  split
  · split
    · exact .refl _
    · exact (h _ _).bind fun _ => .refl _
  · refine (Below.refl _).bind fun resource => ?_
    split
    · exact .refl _
    · exact deployedAttribute?_mono (fun st _ => h st) id attr _

theorem ref?_mono (h : ∀ st e, Below (evaluate st e) (evaluate' st e)) (st : Stack)
    (id : String) : Below (ref? cloud evaluate st id) (ref? cloud evaluate' st id) := by
  unfold ref?
  split
  · exact .refl _
  · split
    · exact .refl _
    · exact .refl _
    · exact attribute?_mono h st id none

theorem meaning_mono (h : ∀ st e, Below (evaluate st e) (evaluate' st e)) (st : Stack) :
    (meaning cloud evaluate st).Below (meaning cloud evaluate' st) where
  ref id := (ref?_mono h st id).join
  getAtt id attr := (attribute?_mono h st id attr).join
  importValue _ := .refl _

/-- **More depth never changes a value.** -/
theorem evaluateAt_mono (cloud : Cloud) (n : Nat) : ∀ st e,
    Below (evaluateAt cloud n st e) (evaluateAt cloud (n + 1) st e) := by
  induction n with
  | zero => exact fun _ _ => .of_none _
  | succ n ih => exact fun st e => value_mono (meaning_mono ih st) e

theorem evaluateAt_mono_le (cloud : Cloud) {n m : Nat} (h : n ≤ m) (st : Stack) (e : Expr) :
    Below (evaluateAt cloud n st e) (evaluateAt cloud m st e) := by
  induction m, h using Nat.le_induction with
  | base => exact .refl _
  | succ m _ ih => exact fun v hv => evaluateAt_mono cloud m st e v (ih v hv)

/-! ## What a stack is worth depends on -/

/-- The expressions of a stack that others can lead to: its outputs, and the parameters of the
stacks nested in it. -/
def items (st : Stack) : List Expr :=
  st.template.outputs.map (fun o => Expr.ofJson o.2.value) ++
    (NestedStack.preorder st.nested).filterMap fun e =>
      (st.template.property? e.1 "Parameters").map Expr.ofJson

theorem length_items_le (st : Stack) :
    (items st).length ≤ st.template.outputs.length + (NestedStack.preorder st.nested).length := by
  rw [items, List.length_append, List.length_map]
  exact Nat.add_le_add_left (List.length_filterMap_le _ _) _

theorem mem_items_of_output {st : Stack} {output : String} {value : Json}
    (h : st.template.outputValue? output = some value) : Expr.ofJson value ∈ items st := by
  obtain ⟨o, hget, rfl⟩ := Option.map_eq_some_iff.mp h
  exact List.mem_append_left _ (List.mem_map.mpr ⟨_, Dict.mem_of_get? hget, rfl⟩)

theorem mem_items_of_parameters {st : Stack} {id : String} {d : NestedStack} {parameters : Json}
    (hf : NestedStack.find? id st.nested = some d)
    (hp : st.template.property? id "Parameters" = some parameters) :
    Expr.ofJson parameters ∈ items st := by
  refine List.mem_append_right _ (List.mem_filterMap.mpr
    ⟨(id, d), NestedStack.mem_preorder_of_find? hf, ?_⟩)
  rw [hp]
  rfl

/-- One stack is nested in another. -/
def Nested (st child : Stack) : Prop :=
  ∃ id name, NestedStack.find? id st.nested = some (.mk (some name) child.template child.nested)

theorem nested_of_child? {st child : Stack} {id : String}
    (h : child? evaluate st id = some (some child)) : Nested st child := by
  unfold child? at h
  split at h
  · next name template inner hf =>
    obtain ⟨parameters, -, hp⟩ := Option.bind_eq_some_iff.mp h
    obtain rfl := Option.some.inj (Option.some.inj hp)
    exact ⟨id, name, hf⟩
  · cases h

section Congr

variable {st : Stack} (hitems : ∀ e ∈ items st, evaluate st e = evaluate' st e)
include hitems

theorem child?_congr (id : String) : child? evaluate st id = child? evaluate' st id := by
  unfold child?
  split
  · next _ template inner hf =>
    have hparameters : nestedParameters evaluate st id = nestedParameters evaluate' st id := by
      unfold nestedParameters
      cases hp : st.template.property? id "Parameters" with
      | none => rfl
      | some parameters =>
        simp only [hitems _ (mem_items_of_parameters hf hp)]
    rw [hparameters]
  · rfl

variable (hnested : ∀ child, Nested st child → ∀ e, evaluate child e = evaluate' child e)
include hnested

theorem nestedOutput?_congr (id output : String) :
    nestedOutput? evaluate st id output = nestedOutput? evaluate' st id output := by
  unfold nestedOutput?
  rw [← child?_congr hitems id]
  cases hc : child? evaluate st id with
  | none => rfl
  | some child =>
    cases child with
    | none => rfl
    | some child =>
      have := hnested child (nested_of_child? hc)
      simp [this]

theorem attribute?_congr (id : String) (attr : Option String) :
    attribute? cloud evaluate st id attr = attribute? cloud evaluate' st id attr := by
  unfold attribute?
  split
  · next output =>
    cases ho : st.template.outputValue? output with
    | none => rfl
    | some value =>
      simp only [hitems _ (mem_items_of_output ho)]
  · refine congrArg (Option.bind _) (funext fun resource => ?_)
    cases resource with
    | none => rfl
    | some resource =>
      unfold deployedAttribute?
      dsimp only
      split
      · exact nestedOutput?_congr hitems hnested _ _
      · rfl
      · rfl

/-- A stack is worth what its own expressions and the stacks nested in it are worth. -/
theorem meaning_congr : meaning cloud evaluate st = meaning cloud evaluate' st := by
  have hattr : ∀ id attr,
      attribute? cloud evaluate st id attr = attribute? cloud evaluate' st id attr :=
    attribute?_congr hitems hnested
  have href : ∀ id, ref? cloud evaluate st id = ref? cloud evaluate' st id := fun id => by
    unfold ref?
    rw [hattr]
  unfold meaning
  simp only [hattr, href]

end Congr

end Stack

/-! ## Enough depth -/

/-- The depth that is enough for a stack. -/
def enough (st : Stack) : Nat :=
  Evaluator.ownSteps st.template st.nested + Evaluator.nestedSteps st.nested

theorem enough_lt_of_nested {st child : Stack} (h : Nested st child) :
    enough child < Evaluator.nestedSteps st.nested := by
  obtain ⟨id, name, hf⟩ := h
  exact Evaluator.steps_lt_of_mem_preorder _ (NestedStack.mem_preorder_of_find? hf)

/-- Elements of a list get a property one after the other and keep it. Before all could have got it,
there is a moment at which none gets it. -/
theorem exists_standstill (l : List β) {P : Nat → β → Prop} (hmono : ∀ n b, P n b → P (n + 1) b)
    (start : Nat) : ∃ k ≤ l.length, ∀ b ∈ l, P (start + k + 1) b → P (start + k) b := by
  classical
  let count (n : Nat) : Nat := l.countP fun b => P n b
  have hstep : ∀ n, (∀ b ∈ l, P (n + 1) b → P n b) ∨ count n < count (n + 1) := by
    intro n
    have hle : count n ≤ count (n + 1) :=
      List.countP_mono_left fun b _ hb => decide_eq_true (hmono n b (of_decide_eq_true hb))
    rcases hle.eq_or_lt with heq | hlt
    · -- The elements with the property are the same, since there are as many of them.
      have hfilter := (List.monotone_filter_right l fun b hb =>
        decide_eq_true (hmono n b (of_decide_eq_true hb))).eq_of_length (by
          rw [← List.countP_eq_length_filter, ← List.countP_eq_length_filter]
          exact heq)
      refine Or.inl fun b hb hP => ?_
      have hmem : b ∈ l.filter fun b => P (n + 1) b := List.mem_filter.mpr ⟨hb, decide_eq_true hP⟩
      rw [← hfilter] at hmem
      exact of_decide_eq_true (List.mem_filter.mp hmem).2
    · exact Or.inr hlt
  have hcount : ∀ k, (∃ i < k, ∀ b ∈ l, P (start + i + 1) b → P (start + i) b) ∨
      k ≤ count (start + k) := by
    intro k
    induction k with
    | zero => exact Or.inr (Nat.zero_le _)
    | succ k ih =>
      rcases ih with ⟨i, hi, hs⟩ | hk
      · exact Or.inl ⟨i, hi.trans (Nat.lt_succ_self k), hs⟩
      · rcases hstep (start + k) with hs | hlt
        · exact Or.inl ⟨k, Nat.lt_succ_self k, hs⟩
        · exact Or.inr (Nat.succ_le_of_lt (hk.trans_lt hlt))
  rcases hcount (l.length + 1) with ⟨k, hk, hs⟩ | hk
  · exact ⟨k, Nat.le_of_lt_succ hk, hs⟩
  · exact absurd (hk.trans List.countP_le_length) (Nat.not_succ_le_self _)

/-- **What comes to a standstill in the stacks nested in a stack and in its own expressions, and
then in all expressions of the stack, stands still with enough depth.** The recursion is on the
depth, which is less for the nested stacks. -/
theorem still_of_enough {σ : Type} (stack : σ → Stack) {Still : Nat → σ → Expr → Prop}
    (hitems : ∀ st start, ∃ k ≤ (items (stack st)).length,
      ∀ e ∈ items (stack st), Still (start + k) st e)
    (hstep : ∀ n st, (∀ e ∈ items (stack st), Still n st e) →
      (∀ child, Nested (stack st) (stack child) → ∀ e, Still n child e) →
      ∀ e, Still (n + 1) st e)
    (st : σ) (n : Nat) (h : enough (stack st) ≤ n) (e : Expr) : Still n st e := by
  have hnested : ∀ m, Evaluator.nestedSteps (stack st).nested ≤ m →
      ∀ child, Nested (stack st) (stack child) → ∀ e, Still m child e := by
    intro m hm child hchild e
    have hlt := enough_lt_of_nested hchild
    have : enough (stack child) < enough (stack st) := Nat.lt_of_lt_of_le hlt (Nat.le_add_left _ _)
    exact still_of_enough stack hitems hstep child m (hlt.le.trans hm) e
  -- From the depth on at which the nested stacks stand still, the stack itself comes to a halt.
  obtain ⟨k, hk, hs⟩ := hitems st (Evaluator.nestedSteps (stack st).nested)
  have hsettled : ∀ m, Evaluator.nestedSteps (stack st).nested + k ≤ m →
      ∀ e ∈ items (stack st), Still m st e := by
    intro m hm
    induction m, hm using Nat.le_induction with
    | base => exact hs
    | succ m hm ih => exact fun e _ => hstep m st ih (hnested m ((Nat.le_add_right _ _).trans hm)) e
  have hlength := length_items_le (stack st)
  unfold enough Evaluator.ownSteps at h
  obtain ⟨m, rfl⟩ : ∃ m, n = m + 1 := ⟨n - 1, by omega⟩
  exact hstep m st (hsettled m (by omega)) (hnested m (by omega)) e
termination_by enough (stack st)

section Depth

variable {cloud : Cloud} {n : Nat} {st : Stack}

/-- A stack's own expressions are worth the same with one more depth before they could all have got
a value one by one. -/
theorem exists_settled (cloud : Cloud) (st : Stack) (start : Nat) : ∃ k ≤ (items st).length,
    ∀ e ∈ items st, evaluateAt cloud (start + k) st e = evaluateAt cloud (start + k + 1) st e := by
  have hmono : ∀ n e, (evaluateAt cloud n st e).isSome →
      (evaluateAt cloud (n + 1) st e).isSome := by
    intro n e he
    obtain ⟨v, hv⟩ := Option.isSome_iff_exists.mp he
    exact Option.isSome_iff_exists.mpr ⟨v, evaluateAt_mono cloud n st e v hv⟩
  obtain ⟨k, hk, hs⟩ := exists_standstill (items st) hmono start
  refine ⟨k, hk, fun e he => ?_⟩
  cases hv : evaluateAt cloud (start + k) st e with
  | some v => exact (evaluateAt_mono cloud _ st e v hv).symm
  | none =>
    have hnone := mt (hs e he)
    rw [hv] at hnone
    exact (Option.not_isSome_iff_eq_none.mp (hnone (by simp))).symm

/-- Where neither the stack's own expressions nor the nested stacks change, nothing does. -/
theorem evaluateAt_of_settled
    (hitems : ∀ e ∈ items st, evaluateAt cloud n st e = evaluateAt cloud (n + 1) st e)
    (hnested : ∀ child, Nested st child →
      ∀ e, evaluateAt cloud n child e = evaluateAt cloud (n + 1) child e) (e : Expr) :
    evaluateAt cloud (n + 1) st e = evaluateAt cloud (n + 2) st e := by
  show value (meaning cloud (evaluateAt cloud n) st) e
    = value (meaning cloud (evaluateAt cloud (n + 1)) st) e
  rw [meaning_congr hitems hnested]

/-- **With enough depth, one more makes no difference.** -/
theorem evaluateAt_succ (cloud : Cloud) (st : Stack) (n : Nat) (h : enough st ≤ n) (e : Expr) :
    evaluateAt cloud n st e = evaluateAt cloud (n + 1) st e := by
  let Still (n : Nat) (st : Stack) (e : Expr) : Prop :=
    evaluateAt cloud n st e = evaluateAt cloud (n + 1) st e
  have hstep : ∀ n st, (∀ e ∈ items st, Still n st e) →
      (∀ child, Nested st child → ∀ e, Still n child e) → ∀ e, Still (n + 1) st e :=
    fun n st hitems hnested => evaluateAt_of_settled hitems hnested
  exact @still_of_enough Stack id Still (exists_settled cloud) hstep st n h e

theorem evaluateAt_eq (cloud : Cloud) (st : Stack) (h : enough st ≤ n) (e : Expr) :
    evaluateAt cloud n st e = evaluateAt cloud (enough st) st e := by
  induction n, h using Nat.le_induction with
  | base => rfl
  | succ n hn ih => rw [← evaluateAt_succ cloud st n hn e, ih]

/-- **What has a value at all has it with enough depth.** -/
theorem gives_iff {v w : Json} (h : enough st ≤ n) :
    Gives cloud st v w ↔ evaluateAt cloud n st (Expr.ofJson v) = some w := by
  constructor
  · rintro ⟨m, hm⟩
    rcases Nat.le_total m n with hmn | hnm
    · exact evaluateAt_mono_le cloud hmn st _ _ hm
    · rwa [evaluateAt_eq cloud st h, ← evaluateAt_eq cloud st (h.trans hnm)]
  · exact fun hn => ⟨n, hn⟩

end Depth

end StackExpr.Plain
