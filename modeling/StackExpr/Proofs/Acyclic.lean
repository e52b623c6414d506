import StackExpr.Proofs.GivingUp
import StackExpr.Proofs.NestedOutput
/-!
# Outputs that do not lead back to themselves

An expression leads to others by the attributes it asks for: an attribute of `Outputs` to an output
of the stack, an output of a nested stack to the parameters that are declared for that stack, and
into it (`Lead.of?`). A template is `Ranked` if what its outputs and these parameters lead to always
has a lower rank, so that none leads back to itself.

**Where all templates of a tree are ranked, no evaluation is ever given up**
(`Evaluator.Ranked.concludes`), so evaluations that can go on come to a value, to the reason why
there is none, or to a request that failed (`Run.evaluation_concludes`).

Two inductions carry this. Inside a stack it is one on the rank: an expression is not given up if
the expressions that it leads to are not (`Evaluator.concludes_succ`). From a stack to those nested
in it, it is one on the depth that is enough, which is less for them, however many levels of the
tree are skipped on the way. The depth itself is no obstacle: who is not given up within some depth
is not given up within the depth of the evaluator (`Evaluator.GivesUp.of_enough`).
-/

namespace StackExpr

open Job

/-! ## Jobs that are not given up -/

namespace Job

variable {α β : Type} {w : World}

/-- The job is not given up: it ends with a value, for want of one or because a request fails. -/
def Concludes (w : World) (job : Job α) : Prop := job.Ensures w fun r => r ≠ .error .tooDeep

theorem concludes_pure (a : α) : (pure a : Job α).Concludes w := by
  intro h
  cases h

theorem concludes_fail (e : EvalError) : (fail e : Job α).Concludes w := by
  intro h
  cases h

theorem concludes_ofExcept (r : Except EvalError α) : (ofExcept r).Concludes w := by
  cases r with
  | ok a => exact concludes_pure a
  | error e => exact concludes_fail e

theorem concludes_ofOption (e : EvalError) (o : Option α) : (ofOption e o).Concludes w := by
  cases o with
  | some a => exact concludes_pure a
  | none => exact concludes_fail e

theorem concludes_query (id : Nat) (q : Query) : (query id q).Concludes w :=
  ensures_query (fun _ _ h => nomatch h) fun _ _ h => nomatch h

theorem concludes_bind {f : α → Job β} {job : Job α} {P : α → Prop} (h : job.Concludes w)
    (hP : job.Returns w P) (hf : ∀ a, P a → (f a).Concludes w) : (job.bind f).Concludes w := by
  have hboth : job.Ensures w fun r => r ≠ .error .tooDeep ∧ ∀ a, r = .ok a → P a :=
    (ensures_canEnd job).mono fun r hr => ⟨hr _ h, hr _ hP⟩
  refine ensures_bind (fun a ha => hf a (ha.2 a rfl)) (fun e he hdeep => he.1 ?_) hboth
  rw [Except.error.inj hdeep]

theorem Concludes.bind {f : α → Job β} {job : Job α} (h : job.Concludes w)
    (hf : ∀ a, (f a).Concludes w) : (job.bind f).Concludes w :=
  concludes_bind h (returns_of_forall (P := fun _ => True) (fun _ => trivial) job) fun a _ => hf a

theorem concludes_all {parts : List (Job Json)} (h : ∀ part ∈ parts, part.Concludes w) :
    (all parts).Concludes w := by
  have hparts : List.Forall₂ (Ensures w) parts (parts.map fun _ r => r ≠ .error .tooDeep) := by
    rw [List.forall₂_map_right_iff]
    exact List.forall₂_same.mpr h
  refine ensures_all hparts (fun vs _ h => nomatch h) ?_
  intro before P after e hPs hP _ hdeep
  obtain ⟨part, -, rfl⟩ := List.mem_map.mp (hPs ▸ List.mem_append_right before List.mem_cons_self)
  exact hP (by rw [Except.error.inj hdeep])

end Job

/-! ## Attributes that an expression mentions -/

/-- The segment is a placeholder for an attribute. -/
def Sub.Segment.Mentions (id attr : String) : Sub.Segment → Prop
  | .literal _ => False
  | .placeholder name => Target.ofPlaceholder name = .getAtt id attr

namespace Expr

/-- A text that the value of the expression may be. A text that is written down is only itself. -/
def MayBe (e : Expr) (text : String) : Prop := ∀ s, e = .scalar (.string s) → s = text

mutual

/-- The expression mentions an attribute, or may come to one whose name is not written down. -/
def Mentions (id attr : String) : Expr → Prop
  | scalar _ => False
  | list elements => ElementsMention id attr elements
  | record fields => FieldsMention id attr fields
  | ref _ => False
  | getAtt _ => False
  | getAttOf id' attr' => Mentions id attr attr' ∨ id' = id ∧ attr'.MayBe attr
  | join _ items => Mentions id attr items
  | split _ text => Mentions id attr text
  | select index items => Mentions id attr index ∨ Mentions id attr items
  | sub template => ∃ segment ∈ Sub.parse template, segment.Mentions id attr
  | subWith template bindings =>
    Mentions id attr bindings ∨ ∃ segment ∈ Sub.parse template, segment.Mentions id attr
  | importValue name => Mentions id attr name
  | invalid _ => False

/-- One of the elements mentions an attribute. -/
def ElementsMention (id attr : String) : List Expr → Prop
  | [] => False
  | e :: es => Mentions id attr e ∨ ElementsMention id attr es

/-- One of the fields mentions an attribute. -/
def FieldsMention (id attr : String) : List (String × Expr) → Prop
  | [] => False
  | (_, e) :: fs => Mentions id attr e ∨ FieldsMention id attr fs

end

/-- An attribute whose name is written down is the only one that is mentioned. -/
theorem mentions_getAttOf_string {id id' attr attr' : String} :
    (getAttOf id' (.scalar (.string attr'))).Mentions id attr ↔ id' = id ∧ attr' = attr := by
  constructor
  · rintro (h | ⟨hid, hattr⟩)
    · exact h.elim
    · exact ⟨hid, hattr attr' rfl⟩
  · rintro ⟨hid, rfl⟩
    refine Or.inr ⟨hid, fun s hs => ?_⟩
    injection hs with hs
    exact (Json.string.inj hs).symm

end Expr

section Expr

variable {w : World} {r : Resolver}

/-- What is referred to is not given up, apart from attributes. -/
structure Resolver.Concludes (w : World) (r : Resolver) : Prop where
  ref : ∀ id, (r.ref id).Concludes w
  resource : ∀ id, (r.getAtt id none).Concludes w
  importValue : ∀ name, (r.importValue name).Concludes w

theorem concludes_substitute (hr : r.Concludes w) (vars : Dict Json) :
    (segments : List Sub.Segment) →
    (∀ id attr, (∃ segment ∈ segments, segment.Mentions id attr) →
      (r.getAtt id (some attr)).Concludes w) →
    (substitute r vars segments).Concludes w
  | [], _ => concludes_pure _
  | .literal _ :: segments, h => by
    have hrest := concludes_substitute hr vars segments
      fun id attr ⟨segment, hmem, hm⟩ => h id attr ⟨segment, List.mem_cons_of_mem _ hmem, hm⟩
    exact hrest.bind fun _ => concludes_pure _
  | .placeholder name :: segments, h => by
    have hrest := concludes_substitute hr vars segments
      fun id attr ⟨segment, hmem, hm⟩ => h id attr ⟨segment, List.mem_cons_of_mem _ hmem, hm⟩
    have htarget : ((vars.get? name).elim (r.target (.ofPlaceholder name)) pure).Concludes w := by
      cases vars.get? name with
      | some v => exact concludes_pure v
      | none =>
        show (r.target (.ofPlaceholder name)).Concludes w
        cases ht : Sub.Target.ofPlaceholder name with
        | ref id => exact hr.ref id
        | getAtt id attr => exact h id attr ⟨_, List.mem_cons_self, ht⟩
    rw [substitute_placeholder]
    refine htarget.bind fun v => (concludes_ofExcept _).bind fun text => ?_
    exact hrest.bind fun _ => concludes_pure _

/-- An expression comes to a text only if that may be its value. -/
theorem returns_mayBe (attr : Expr) :
    (attr.evaluate r).Returns w fun v => ∀ text, v = .string text → attr.MayBe text := by
  by_cases hs : ∃ s, attr = .scalar (.string s)
  · obtain ⟨s, rfl⟩ := hs
    refine returns_pure fun text htext s' hs' => ?_
    injection hs' with hs'
    exact (Json.string.inj hs').symm.trans (Json.string.inj htext)
  · exact returns_of_forall (fun v text _ s h => absurd ⟨s, h⟩ hs) _

mutual

/-- **An expression is not given up if the attributes that it mentions are not.** -/
theorem concludes_evaluate (hr : r.Concludes w) : (e : Expr) →
    (∀ id attr, e.Mentions id attr → (r.getAtt id (some attr)).Concludes w) →
    (e.evaluate r).Concludes w
  | .scalar v, _ => concludes_pure v
  | .list elements, h =>
    (concludes_all (concludes_evaluateParts hr elements h)).bind fun _ => concludes_pure _
  | .record fields, h => (concludes_evaluateFields hr fields h).bind fun _ => concludes_pure _
  | .ref id, _ => hr.ref id
  | .getAtt id, _ => hr.resource id
  | .getAttOf id attr, h => by
    have hattr := concludes_evaluate hr attr fun id' attr' hm => h id' attr' (Or.inl hm)
    refine concludes_bind hattr (returns_mayBe attr) fun v hv => ?_
    cases v with
    | string text => exact h id text (Or.inr ⟨rfl, hv text rfl⟩)
    | _ => exact concludes_fail _
  | .join _ items, h =>
    (concludes_evaluate hr items h).bind fun _ => (concludes_ofExcept _).bind fun _ =>
      concludes_ofExcept _
  | .split _ text, h =>
    (concludes_evaluate hr text h).bind fun _ => (concludes_ofExcept _).bind fun _ =>
      concludes_pure _
  | .select index items, h => by
    have hindex := concludes_evaluate hr index fun id attr hm => h id attr (Or.inl hm)
    have hitems := concludes_evaluate hr items fun id attr hm => h id attr (Or.inr hm)
    exact hindex.bind fun _ => (concludes_ofExcept _).bind fun _ =>
      hitems.bind fun _ => (concludes_ofExcept _).bind fun _ => concludes_ofExcept _
  | .sub _, h => (concludes_substitute hr _ _ h).bind fun _ => concludes_pure _
  | .subWith _ bindings, h => by
    have hbindings := concludes_evaluate hr bindings fun id attr hm => h id attr (Or.inl hm)
    exact hbindings.bind fun _ => (concludes_ofExcept _).bind fun vars =>
      (concludes_substitute hr vars _ fun id attr hm => h id attr (Or.inr hm)).bind fun _ =>
        concludes_pure _
  | .importValue name, h =>
    (concludes_evaluate hr name h).bind fun _ => (concludes_ofExcept _).bind fun _ =>
      hr.importValue _
  | .invalid e, _ => concludes_fail e

theorem concludes_evaluateParts (hr : r.Concludes w) : (es : List Expr) →
    (∀ id attr, Expr.ElementsMention id attr es → (r.getAtt id (some attr)).Concludes w) →
    ∀ part ∈ Expr.evaluateParts r es, part.Concludes w
  | [], _ => by simp [Expr.evaluateParts]
  | e :: es, h => by
    have he := concludes_evaluate hr e fun id attr hm => h id attr (Or.inl hm)
    have hes := concludes_evaluateParts hr es fun id attr hm => h id attr (Or.inr hm)
    rw [Expr.evaluateParts]
    exact List.forall_mem_cons.mpr ⟨he, hes⟩

theorem concludes_evaluateFields (hr : r.Concludes w) : (fields : List (String × Expr)) →
    (∀ id attr, Expr.FieldsMention id attr fields → (r.getAtt id (some attr)).Concludes w) →
    (Expr.evaluateFields r fields).Concludes w
  | [], _ => concludes_pure _
  | (_, e) :: fields, h => by
    have he := concludes_evaluate hr e fun id attr hm => h id attr (Or.inl hm)
    have hfields := concludes_evaluateFields hr fields fun id attr hm => h id attr (Or.inr hm)
    exact he.bind fun _ => hfields.bind fun _ => concludes_pure _

end

end Expr

/-! ## What attributes lead to -/

/-- What an expression can lead to in a stack: an output of it, or the parameters that it declares
for a stack nested in it. -/
inductive Lead where
  | output (name : String)
  | nested (id : String)
  deriving DecidableEq

/-- What an attribute leads to, if it is one of `Outputs` or an output of a nested stack. -/
def Lead.of? (id attr : String) : Option Lead :=
  if id = "Outputs" then some (.output attr)
  else (Text.dropStart? "Outputs." attr).map fun _ => .nested id

/-- The expression that something leads to, if there is one. -/
def Template.leadsTo? (t : Template) (nested : Dict NestedStack) : Lead → Option Json
  | .output name => t.outputValue? name
  | .nested id => (NestedStack.find? id nested).bind fun _ => t.property? id "Parameters"

/-- The outputs of a template and the stacks nested in it have ranks, and none mentions anything of
its own rank or a higher one: an output not in its value, and a nested stack not in its
parameters. -/
def Template.Ranked (t : Template) (nested : Dict NestedStack) : Prop :=
  ∃ rank : Lead → Nat, ∀ lead e, t.leadsTo? nested lead = some e →
    ∀ id attr, (Expr.ofJson e).Mentions id attr → ∀ lead', Lead.of? id attr = some lead' →
      (t.leadsTo? nested lead').isSome → rank lead' < rank lead

namespace Evaluator

/-- The template of the evaluator is ranked, and so are all templates in its tree. -/
structure Ranked (ev : Evaluator) : Prop where
  own : ev.template.Ranked ev.nested
  nested : ∀ e ∈ NestedStack.preorder ev.nested, e.2.template.Ranked e.2.nested

theorem Ranked.child {ev child : Evaluator} (h : ev.Ranked) (hc : child.NestedIn ev) :
    child.Ranked := by
  obtain ⟨id, name, hf⟩ := hc
  have hmem := NestedStack.mem_preorder_of_find? hf
  exact ⟨h.nested _ hmem, fun e he => h.nested e (NestedStack.preorder_subset _ hmem he)⟩

variable {w : World} {evaluate : Evaluate} {ev : Evaluator}

theorem concludes_deployed? (id : String) : (ev.deployed? id).Concludes w :=
  (concludes_query _ _).bind fun _ => concludes_pure _

section Attributes

variable (hnested : ∀ child : Evaluator, child.NestedIn ev → ∀ e, (evaluate child e).Concludes w)
include hnested

theorem concludes_nestedOutput? {id : String}
    (hparameters : ∀ e, ev.template.leadsTo? ev.nested (.nested id) = some e →
      (evaluate ev (Expr.ofJson e)).Concludes w) (output : String) :
    (nestedOutput? evaluate ev id output).Concludes w := by
  have hchild : (nestedEvaluator? evaluate ev id).Concludes w := by
    unfold nestedEvaluator?
    split
    · next name template inner hf =>
      have hvalues : (nestedParameters evaluate ev id).Concludes w := by
        unfold nestedParameters
        split
        · exact concludes_pure _
        · next parameters hp =>
          refine (hparameters parameters ?_).bind fun v => ?_
          · rw [Template.leadsTo?, hf]
            exact hp
          · split
            · exact concludes_pure _
            · exact concludes_fail _
      exact hvalues.bind fun parameters caches _ => concludes_pure _
    · exact concludes_pure _
  have hbuilt : (nestedEvaluator? evaluate ev id).Returns w
      fun child? => ∀ child, child? = some child → child.NestedIn ev := by
    refine (ensures_builtFrom w evaluate ev id).mono ?_
    rintro r ⟨-, hr⟩ child? rfl child rfl
    obtain ⟨⟨d, hf, hd⟩, -⟩ := hr child rfl
    exact ⟨id, child.stackName, hd.declared ▸ hf⟩
  refine concludes_bind hchild hbuilt fun child? hc => ?_
  cases child? with
  | none => exact concludes_pure _
  | some child => exact (hnested child (hc child rfl) _).bind fun _ => concludes_pure _

/-- An attribute is not given up if what it leads to is not. -/
theorem concludes_attribute? {id : String} {attr : Option String}
    (hlead : ∀ lead, attr.bind (Lead.of? id) = some lead → ∀ e,
      ev.template.leadsTo? ev.nested lead = some e → (evaluate ev (Expr.ofJson e)).Concludes w) :
    (attribute? evaluate ev id attr).Concludes w := by
  by_cases hid : ∃ output, id = "Outputs" ∧ attr = some output
  · obtain ⟨output, rfl, rfl⟩ := hid
    rw [attribute?_outputs]
    cases hv : ev.template.outputValue? output with
    | none => exact concludes_pure _
    | some value =>
      have hof : Lead.of? "Outputs" output = some (.output output) := if_pos rfl
      have hvalue := hlead (.output output) hof value hv
      exact hvalue.bind fun _ => concludes_pure _
  · have hne : ∀ output, id = "Outputs" → attr = some output → False :=
      fun output hid' hattr => hid ⟨output, hid', hattr⟩
    rw [attribute?_of_ne hne]
    refine (concludes_deployed? id).bind fun resource? => ?_
    cases resource? with
    | none => exact concludes_pure _
    | some resource =>
      show (deployedAttribute? evaluate ev id attr resource).Concludes w
      unfold deployedAttribute?
      split
      · next output _ hdrop =>
        refine concludes_nestedOutput? hnested (hlead (.nested id) ?_) output
        obtain ⟨attr, rfl, hdrop'⟩ := Option.bind_eq_some_iff.mp hdrop
        have hid : id ≠ "Outputs" := fun h => hne attr h rfl
        rw [Option.bind_some, Lead.of?, if_neg hid, hdrop', Option.map_some]
      · exact concludes_pure _
      · exact (concludes_ofExcept _).bind fun _ => concludes_pure _

theorem concludes_resolver : (ev.resolver evaluate).Concludes w where
  ref id := by
    have hvalue : (ref? evaluate ev id).Concludes w := by
      unfold ref?
      split
      · exact (concludes_query _ _).bind fun _ => concludes_pure _
      · split
        · exact concludes_pure _
        · exact concludes_pure _
        · exact concludes_attribute? hnested fun lead h => nomatch h
    exact hvalue.bind fun _ => concludes_ofOption _ _
  resource id := by
    have hvalue : (attribute? evaluate ev id none).Concludes w :=
      concludes_attribute? hnested fun lead h => nomatch h
    exact hvalue.bind fun _ => concludes_ofOption _ _
  importValue name := by
    refine (concludes_query _ _).bind fun found => ?_
    split
    · exact concludes_fail _
    · exact concludes_fail _
    · exact concludes_pure _

end Attributes

/-! ## Ranks -/

theorem concludes_iff {n : Nat} {e : Expr} :
    (evaluateAt n ev e).Concludes w ↔ ¬ GivesUp w n ev e := by
  constructor
  · exact fun h hgives => hgives _ h rfl
  · intro h
    refine Ensures.mono ?_ (ensures_canEnd (evaluateAt n ev e))
    intro r hr hdeep
    rw [hdeep] at hr
    exact h hr

/-- **An expression is not given up with one more depth if what it leads to is not.** -/
theorem concludes_succ {n : Nat} {e : Expr}
    (hnested : ∀ child : Evaluator, child.NestedIn ev → ∀ e, (evaluateAt n child e).Concludes w)
    (hlead : ∀ id attr, e.Mentions id attr → ∀ lead, Lead.of? id attr = some lead →
      ∀ e', ev.template.leadsTo? ev.nested lead = some e' →
        (evaluateAt n ev (Expr.ofJson e')).Concludes w) :
    (evaluateAt (n + 1) ev e).Concludes w := by
  refine concludes_evaluate (concludes_resolver hnested) e fun id attr hm => ?_
  have hvalue : (attribute? (evaluateAt n) ev id (some attr)).Concludes w :=
    concludes_attribute? hnested (hlead id attr hm)
  exact hvalue.bind fun _ => concludes_ofOption _ _

/-- What is not given up within some depth is not given up within enough depth. -/
theorem Concludes.of_enough {n m : Nat} {e : Expr} (hn : Plain.enough ev.stack ≤ n)
    (h : (evaluateAt m ev e).Concludes w) : (evaluateAt n ev e).Concludes w := by
  rw [concludes_iff] at h ⊢
  exact fun hgives => h (hgives.of_enough hn m)

/-- **In a ranked tree nothing is given up.** -/
theorem Ranked.concludes {ev : Evaluator} (hr : ev.Ranked) (n : Nat)
    (hn : Plain.enough ev.stack ≤ n) (e : Expr) : (evaluateAt n ev e).Concludes w := by
  -- Less depth is enough for the stacks nested in it, so this one's will do for them.
  have hnested : ∀ child : Evaluator, child.NestedIn ev →
      ∀ e, (evaluateAt n child e).Concludes w := by
    intro child hc e
    have hstack : Plain.Nested ev.stack child.stack := hc
    have hlt : Plain.enough child.stack < Plain.enough ev.stack :=
      (Plain.enough_lt_of_nested hstack).trans_le (Nat.le_add_left _ _)
    exact Ranked.concludes (hr.child hc) n (hlt.le.trans hn) e
  obtain ⟨rank, hrank⟩ := hr.own
  -- By induction on the rank. Every step takes one more depth than there is, which is given back
  -- because the depth is enough.
  have hlead : ∀ k lead, rank lead = k → ∀ e, ev.template.leadsTo? ev.nested lead = some e →
      (evaluateAt n ev (Expr.ofJson e)).Concludes w := by
    intro k
    induction k using Nat.strong_induction_on with
    | _ k ih =>
      rintro lead rfl e he
      refine Concludes.of_enough hn (concludes_succ hnested fun id attr hm lead' hl e' he' => ?_)
      exact ih _ (hrank lead e he id attr hm lead' hl (by rw [he']; rfl)) lead' rfl e' he'
  refine Concludes.of_enough hn (concludes_succ hnested fun id attr _ lead _ e' he' => ?_)
  exact hlead _ lead rfl e' he'
termination_by Plain.enough ev.stack

end Evaluator

/-! ## Runs -/

/-- **Evaluations come to an end where outputs do not lead back to themselves.** Let all templates
in the tree of an evaluator be ranked. Then, whatever is evaluated, whatever is known or under way
already, and whichever requests fail, the evaluation is not given up; and if something goes on as
long as something can, in whatever order, then it ends. -/
theorem Run.evaluation_concludes {client : Client} {log : List Event} {tasks : Multiset Task}
    {s : Session} (h : Run client log tasks s) (hopen : ∀ t ∈ tasks, t.op.Open s) {ev : Evaluator}
    (hm : Made tasks ev) (hr : ev.Ranked) {v : Json} {job : Job Json} {own : List Event}
    (ht : ⟨.evaluate ev v, job, own⟩ ∈ tasks) :
    (∀ r, job = .done r → r ≠ .error .tooDeep) ∧
      ∀ state : Nat → Multiset Task × Session, state 0 = (tasks, s) →
        (∀ n, Advances client (state n) (state (n + 1)) ∨ ∀ x, ¬ Advances client (state n) x) →
        ∃ n r own', ⟨.evaluate ev v, .done r, own'⟩ ∈ (state n).1 ∧ r ≠ .error .tooDeep := by
  have hdepth : Plain.enough ev.stack ≤ ev.depth + 1 := Nat.le_succ_of_le (h.fit hm).deep
  have hends : ∀ {log tasks s own r}, Run client log tasks s →
      ⟨.evaluate ev v, .done r, own⟩ ∈ tasks → r ≠ .error .tooDeep :=
    fun h ht => h.canEnd ht _ (hr.concludes (ev.depth + 1) hdepth (Expr.ofJson v))
  constructor
  · rintro r rfl
    exact hends h ht
  · intro state hstart hstate
    obtain ⟨n, log', h', hops, hend⟩ := h.exists_last hopen hstart hstate
    have hop : Operation.evaluate ev v ∈ (state n).1.map Task.op := by
      rw [hops]
      exact Multiset.mem_map.mpr ⟨_, ht, rfl⟩
    obtain ⟨⟨op, job', own'⟩, ht', rfl⟩ := Multiset.mem_map.mp hop
    obtain ⟨r, hresult⟩ := Option.isSome_iff_exists.mp (hend _ ht')
    have hjob : job' = .done r := result?_eq_some.mp hresult
    rw [hjob] at ht'
    exact ⟨n, r, own', ht', hends h' ht'⟩

/-- The expression for an output of the stack itself. -/
def Evaluator.ownOutput (output : String) : Json :=
  .object [("Fn::GetAtt", .array [.string "Outputs", .string output])]

/-- A template with an output of a nested stack, which in turn is given another output as a
parameter. -/
def Template.chained : Template where
  resources := [("X", {
    type := stackType
    properties := [("Parameters", .object [("P", Evaluator.ownOutput "A")])] })]
  outputs := [("A", ⟨.string "a"⟩), ("B", ⟨Evaluator.nestedOutput "X" "N"⟩)]

/-- The first output comes before the nested stack, and the nested stack before the second one. -/
theorem Template.ranked_chained {d : NestedStack} : Template.chained.Ranked [("X", d)] := by
  let rank : Lead → Nat
    | .output name => if name = "A" then 0 else 2
    | .nested _ => 1
  refine ⟨rank, ?_⟩
  rintro (name | key) e he id attr hmentions lead' hlead -
  · obtain ⟨output, houtput, rfl⟩ := Option.map_eq_some_iff.mp he
    have hmem := Dict.mem_of_get? houtput
    rcases List.mem_cons.mp hmem with hA | hmem
    · cases hA
      exact hmentions.elim
    · cases List.mem_singleton.mp hmem
      rw [Evaluator.ofJson_nestedOutput, Expr.mentions_getAttOf_string] at hmentions
      obtain ⟨rfl, rfl⟩ := hmentions
      have hof : Lead.of? "X" ("Outputs." ++ "N") = some (.nested "X") := by
        rw [Lead.of?, if_neg (by decide), Text.dropStart?_append]
        rfl
      cases hof.symm.trans hlead
      show 1 < rank (.output "B")
      decide
  · obtain ⟨_, -, hproperty⟩ := Option.bind_eq_some_iff.mp he
    obtain ⟨resource, hresource, hproperty⟩ := Option.bind_eq_some_iff.mp hproperty
    cases List.mem_singleton.mp (Dict.mem_of_get? hresource)
    cases List.mem_singleton.mp (Dict.mem_of_get? hproperty)
    have hmentions := Expr.mentions_getAttOf_string.mp (hmentions.resolve_right fun h => h.elim)
    obtain ⟨rfl, rfl⟩ := hmentions
    cases hlead
    show rank (.output "A") < 1
    decide

theorem Template.ranked_oneOutput : Template.oneOutput.Ranked [] := by
  refine ⟨fun _ => 0, ?_⟩
  rintro (name | key) e he id attr hmentions lead' hlead -
  · obtain ⟨output, houtput, rfl⟩ := Option.map_eq_some_iff.mp he
    cases List.mem_singleton.mp (Dict.mem_of_get? houtput)
    exact hmentions.elim
  · rw [Template.leadsTo?, NestedStack.find?] at he
    cases he

/-- The second output is evaluated to the end, whatever comes next and although the first request
for exports fails. -/
theorem evaluation_concludes_of_chained :
    let nested : Dict NestedStack := [("X", .mk (some "own") .oneOutput [])]
    let client : Client := ⟨.listing "X", { exports := [1] }⟩
    let v : Json := Evaluator.ownOutput "B"
    ∃ tasks s ev, Run client [] tasks s ∧ ev.stack = ⟨"stack", .chained, .first, nested⟩ ∧
      ev.Ranked ∧ ⟨.evaluate ev v, ev.evaluate v, []⟩ ∈ tasks ∧
      ∃ (state : Nat → Multiset Task × Session) (n : Nat) (r : Except Failure Json)
        (own : List Event), state 0 = (tasks, s) ∧
        ⟨.evaluate ev v, .done r, own⟩ ∈ (state n).1 ∧ r ≠ .error .tooDeep := by
  intro nested client v
  let ev : Evaluator :=
    ⟨"stack", .chained, .first, nested, 0, Evaluator.depthFor 0 .chained nested⟩
  let opener : Task := ⟨.openStack 0 "stack" .chained .first nested, .done (.ok ev), []⟩
  let t : Task := ⟨.evaluate ev v, ev.evaluate v, []⟩
  let s : Session := ⟨{}, [{ stack := "stack", region := "region" }]⟩
  have h₀ : Run client [] (opener ::ₘ 0) s :=
    .moved (.opened _ _ _) (.begun (.openStack 0 "stack" .chained .first nested) .start)
  have h : Run client [] (t ::ₘ opener ::ₘ 0) s := .begun (.evaluate ev v) h₀
  have hm : Made (t ::ₘ opener ::ₘ 0) ev :=
    .opened (Multiset.mem_cons_of_mem (Multiset.mem_cons_self opener 0))
  have hopen : ∀ u ∈ t ::ₘ opener ::ₘ 0, u.op.Open s := by
    have hevaluate : t.op.Open s := fun id hid => Option.some.inj hid ▸ Nat.zero_lt_one
    have hopener : opener.op.Open s := fun _ hid => nomatch hid
    simp only [Multiset.forall_mem_cons]
    exact ⟨hevaluate, hopener, fun _ hu => absurd hu (Multiset.notMem_zero _)⟩
  have hr : ev.Ranked := by
    refine ⟨Template.ranked_chained, fun e he => ?_⟩
    simp only [ev, nested, NestedStack.preorder, List.append_nil, List.mem_singleton] at he
    rw [he]
    exact Template.ranked_oneOutput
  have ht : t ∈ t ::ₘ opener ::ₘ 0 := Multiset.mem_cons_self _ _
  obtain ⟨state, hstart, hstate⟩ := Advances.exists_sequence client (t ::ₘ opener ::ₘ 0, s)
  obtain ⟨n, r, own, hended, hresult⟩ :=
    (Run.evaluation_concludes h hopen hm hr ht).2 state hstart hstate
  exact ⟨_, s, ev, h, rfl, hr, ht, state, n, r, own, hstart, hended, hresult⟩

end StackExpr
