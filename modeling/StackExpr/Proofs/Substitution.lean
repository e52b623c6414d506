import StackExpr.Proofs.PartialEvaluation
/-!
# Substitution as a join

A substitution template is short for a list: every literal is an element, and so is what every
placeholder stands for, be it the expression of a variable or a reference (`Sub.Segment.element`).
**A substitution evaluates to a text just when the list, joined without a delimiter, does**
(`Cloud.substitution_iff_join`).

The two are evaluated in different ways. The placeholders of a template are evaluated one after the
other, each turned into text before the next is looked at; the elements of a list are evaluated side
by side and turned into text when all have values. So the two need not fail for the same reason.
-/

namespace StackExpr

/-! ## What a substitution is short for -/

namespace Sub

/-- The reference that a placeholder is short for: to an attribute, named behind the first dot, or
to a name if there is no dot. -/
def reference (name : String) : Json :=
  if '.' ∈ name.toList then
    .object [("Fn::GetAtt", .array [.string (String.ofList (name.toList.takeWhile (· != '.'))),
      .string (String.ofList (name.toList.dropWhile (· != '.')).tail)])]
  else .object [("Ref", .string name)]

/-- The element of a list that a segment is short for. -/
def Segment.element (bindings : Dict Json) : Segment → Json
  | .literal text => .string text
  | .placeholder name => (bindings.get? name).getD (reference name)

/-- The join that a substitution is short for. -/
def asJoin (template : String) (bindings : Dict Json) : Json :=
  .object [("Fn::Join", .array [.string "",
    .array ((parse template).map fun segment => segment.element bindings)])]

/-- The expression is written as the substitution in a template with these variables. Where there
are none, the template may stand in a list or not. -/
inductive Written (template : String) : (bindings : Dict Json) → Json → Prop where
  | bare : Written template [] (.object [("Fn::Sub", .string template)])
  | single : Written template [] (.object [("Fn::Sub", .array [.string template])])
  | withBindings {bindings : Dict Json}
    (hcall : Function.isCall (bindings.map Prod.fst) = false) :
    Written template bindings (.object [("Fn::Sub", .array [.string template, .object bindings])])

end Sub

/-! ## Plain values -/

namespace Plain

variable {m : Meaning}

/-- A variable that is written down has the value of its expression. -/
theorem get?_fieldValues : (bindings : Dict Json) → {vars : Dict Json} →
    fieldValues m (Expr.ofFields bindings) = some vars → ∀ name,
    (bindings.get? name).map (fun e => value m (Expr.ofJson e)) = (vars.get? name).map some
  | [], vars, h, name => by
    obtain rfl := Option.some.inj h
    rfl
  | (k, e) :: bindings, vars, h, name => by
    obtain ⟨v, hv, h⟩ := Option.bind_eq_some_iff.mp h
    obtain ⟨rest, hrest, h⟩ := Option.bind_eq_some_iff.mp h
    obtain rfl := Option.some.inj h
    unfold Dict.get?
    split
    · rw [Option.map_some, Option.map_some, hv]
    · exact get?_fieldValues bindings hrest name

theorem fieldValues_eq_some : (fields : Dict Json) →
    (∀ f ∈ fields, ∃ v, value m (Expr.ofJson f.2) = some v) →
    ∃ vs, fieldValues m (Expr.ofFields fields) = some vs
  | [], _ => ⟨[], rfl⟩
  | (k, e) :: fields, h => by
    obtain ⟨⟨v, hv⟩, hfields⟩ := List.forall_mem_cons.mp h
    obtain ⟨vs, hvs⟩ := fieldValues_eq_some fields hfields
    refine ⟨(k, v) :: vs, ?_⟩
    rw [Expr.ofFields, fieldValues, hv, hvs]
    rfl

/-- A reference is worth what the placeholder is that it is written for. -/
theorem value_reference (m : Meaning) (name : String) :
    value m (Expr.ofJson (Sub.reference name)) = m.target (.ofPlaceholder name) := by
  rw [Sub.Target.ofPlaceholder_eq]
  unfold Sub.reference
  split
  · rfl
  · rfl

/-- The text of the values in a row. -/
def concat? : List Json → Option String
  | [] => some ""
  | v :: vs => v.text?.bind fun text => (concat? vs).map fun rest => text ++ rest

/-- Texts after all values are the texts of one value after the other. -/
theorem bind_concat? (v? : Option Json) (vs? : Option (List Json)) :
    (v?.bind fun v => vs?.bind fun vs => some (v :: vs)).bind concat?
      = v?.bind fun v => v.text?.bind fun text =>
          (vs?.bind concat?).bind fun rest => some (text ++ rest) := by
  cases v? with
  | none => rfl
  | some v =>
    rw [Option.bind_some, Option.bind_some]
    cases vs? with
    | none => cases v.text? <;> rfl
    | some vs => exact congrArg (Option.bind v.text?) (funext fun text => Option.map_eq_bind)

theorem joined_toOption (vs : List Json) :
    (joined "" vs).toOption = (concat? vs).map Json.string := by
  have htexts : ∀ vs, ((textsOf .join vs).map fun texts => "".intercalate texts).toOption
      = concat? vs := by
    intro vs
    induction vs with
    | nil => rfl
    | cons v vs ih =>
      rw [textsOf, concat?, ← ih]
      cases v.text? with
      | none => rfl
      | some text =>
        cases textsOf .join vs with
        | error e => rfl
        | ok texts =>
          cases texts with
          | nil => simp [Except.map, Except.toOption]
          | cons t texts =>
            simp [Except.map, Except.toOption, String.intercalate_cons_cons]
  rw [← htexts, joined]
  cases textsOf .join vs <;> rfl

section Segments

variable {bindings vars : Dict Json}
  (hvars : fieldValues m (Expr.ofFields bindings) = some vars)
include hvars

theorem value_placeholder (name : String) :
    value m (Expr.ofJson ((Sub.Segment.placeholder name).element bindings))
      = (vars.get? name).elim (m.target (.ofPlaceholder name)) some := by
  have hget := get?_fieldValues bindings hvars name
  show value m (Expr.ofJson ((bindings.get? name).getD (Sub.reference name))) = _
  cases he : bindings.get? name with
  | none =>
    rw [he, Option.map_none, eq_comm, Option.map_eq_none_iff] at hget
    rw [hget]
    exact value_reference m name
  | some e =>
    rw [he, Option.map_some, eq_comm, Option.map_eq_some_iff] at hget
    obtain ⟨v, hv, hvalue⟩ := hget
    rw [hv]
    exact hvalue.symm

/-- **The text of segments is that of the elements that they are short for.** -/
theorem substitute_eq (segments : List Sub.Segment) : substitute m vars segments
    = (values m (Expr.ofElements (segments.map fun segment => segment.element bindings))).bind
        concat? := by
  induction segments with
  | nil => rfl
  | cons segment segments ih =>
    rw [List.map_cons, Expr.ofElements, values]
    refine Eq.trans ?_ (bind_concat? _ _).symm
    rw [← ih]
    cases segment with
    | literal text => rfl
    | placeholder name =>
      rw [value_placeholder hvars, substitute]
      refine congrArg (Option.bind _) (funext fun v => ?_)
      have htext : (substituted name v).toOption = v.text? := by
        unfold substituted
        cases v.text? <;> rfl
      rw [← htext]
      rfl

end Segments

/-- The value of a substitution. -/
theorem value_written {template : String} {bindings vars : Dict Json} {call : Json}
    (hcall : Sub.Written template bindings call)
    (hvars : fieldValues m (Expr.ofFields bindings) = some vars) :
    value m (Expr.ofJson call)
      = (substitute m vars (Sub.parse template)).map Json.string := by
  cases hcall with
  | bare =>
    obtain rfl := Option.some.inj hvars
    exact (Option.map_eq_bind ..).symm
  | single =>
    obtain rfl := Option.some.inj hvars
    exact (Option.map_eq_bind ..).symm
  | withBindings hcall =>
    have hexpr : Expr.ofJson (.object [("Fn::Sub", .array [.string template, .object bindings])])
        = .subWith template (.record (Expr.ofFields bindings)) := by
      rw [← Expr.ofJson_object hcall]
      rfl
    rw [hexpr, value, value, hvars]
    exact (Option.map_eq_bind ..).symm

/-- **A substitution has the value of the join that it is short for**, where all variables have
values. -/
theorem value_asJoin {template : String} {bindings vars : Dict Json} {call : Json}
    (hcall : Sub.Written template bindings call)
    (hvars : fieldValues m (Expr.ofFields bindings) = some vars) :
    value m (Expr.ofJson call) = value m (Expr.ofJson (Sub.asJoin template bindings)) := by
  rw [value_written hcall hvars, substitute_eq hvars]
  show _ = ((values m _).bind fun vs => some (Json.array vs)).bind _
  cases values m (Expr.ofElements
    ((Sub.parse template).map fun segment => segment.element bindings)) with
  | none => rfl
  | some vs => exact (joined_toOption vs).symm

/-- In a stack: the values of finitely many variables are all there with enough depth. -/
theorem gives_asJoin {cloud : Cloud} {st : Stack} {template : String} {bindings : Dict Json}
    {call : Json} (hcall : Sub.Written template bindings call)
    (hbindings : ∀ b ∈ bindings, ∃ w, Gives cloud st b.2 w) (w : Json) :
    Gives cloud st call w ↔ Gives cloud st (Sub.asJoin template bindings) w := by
  have hdepth : enough st ≤ enough st + 1 := Nat.le_succ _
  have hvalues : ∀ b ∈ bindings, ∃ w,
      value (meaning cloud (evaluateAt cloud (enough st)) st) (Expr.ofJson b.2) = some w :=
    fun b hb => (hbindings b hb).imp fun w hw => (gives_iff hdepth).mp hw
  obtain ⟨vars, hvars⟩ := fieldValues_eq_some bindings hvalues
  rw [gives_iff hdepth, gives_iff hdepth, evaluateAt, value_asJoin hcall hvars]
  exact Iff.rfl

end Plain

/-! ## Runs -/

/-- **A substitution evaluates to a text just when the join that it is short for does**, over a
cloud whose requests do not fail, where all variables evaluate to some value. So it is with the two
wherever they have ended, be it in one run or in two. -/
theorem Cloud.substitution_iff_join {cloud : Cloud} (hd : cloud.DistinctExports) {log : List Event}
    {tasks : Multiset Task} {s : Session} {ev : Evaluator} (h : Run ⟨cloud, .none⟩ log tasks s)
    (hm : Made tasks ev) {template : String} {bindings : Dict Json} {call : Json}
    (hcall : Sub.Written template bindings call)
    (hbindings : ∀ b ∈ bindings, ∃ w, cloud.Evaluates ev b.2 w) (text : String) :
    (cloud.Evaluates ev call (.string text) ↔
      cloud.Evaluates ev (Sub.asJoin template bindings) (.string text)) ∧
    ∀ log₁ tasks₁ s₁ r₁ own₁ log₂ tasks₂ s₂ r₂ own₂,
      Run ⟨cloud, .none⟩ log₁ tasks₁ s₁ → Made tasks₁ ev →
      ⟨.evaluate ev call, .done r₁, own₁⟩ ∈ tasks₁ →
      Run ⟨cloud, .none⟩ log₂ tasks₂ s₂ → Made tasks₂ ev →
      ⟨.evaluate ev (Sub.asJoin template bindings), .done r₂, own₂⟩ ∈ tasks₂ →
      (r₁ = .ok (.string text) ↔ r₂ = .ok (.string text)) := by
  have hgives : Plain.Gives cloud ev.stack call (.string text) ↔
      Plain.Gives cloud ev.stack (Sub.asJoin template bindings) (.string text) :=
    Plain.gives_asJoin hcall (fun b hb => (hbindings b hb).imp fun w hw => hw.gives hd) _
  constructor
  · rw [Cloud.evaluates_iff h hd hm, Cloud.evaluates_iff h hd hm]
    exact hgives
  · intro log₁ tasks₁ s₁ r₁ own₁ log₂ tasks₂ s₂ r₂ own₂ h₁ hm₁ ht₁ h₂ hm₂ ht₂
    rw [h₁.gives_of_done hd hm₁ ht₁, h₂.gives_of_done hd hm₂ ht₂]
    exact hgives

/-- A template with a literal, a variable, an attribute and a name. -/
theorem substitution_iff_join_of_bus :
    let cloud : Cloud :=
      { inventories := [("stack", [⟨"B", some "bus", "AWS::Events::EventBus"⟩])] }
    let template := "\x7bv=$\x7bV.W\x7d,$\x7bB.Name\x7d,$\x7bAWS::Region\x7d"
    let bindings : Dict Json := [("V.W", .object [("Ref", .string "B")])]
    let call : Json := .object [("Fn::Sub", .array [.string template, .object bindings])]
    cloud.Evaluates (.first []) call (.string "\x7bv=bus,bus,region") ∧
      cloud.Evaluates (.first []) (Sub.asJoin template bindings)
        (.string "\x7bv=bus,bus,region") := by
  intro cloud template bindings call
  have hd : cloud.DistinctExports := .nil
  have h := Run.first ⟨cloud, .none⟩ []
  have hm : Made (Task.first [] ::ₘ 0) (.first []) := .first (Multiset.mem_cons_self _ _)
  have hcall : Sub.Written template bindings call := .withBindings (by decide)
  have hparse : Sub.parse template = [.literal "\x7bv=", .placeholder "V.W", .literal ",",
      .placeholder "B.Name", .literal ",", .placeholder "AWS::Region"] := by decide +kernel
  have hv : cloud.Evaluates (.first []) (.object [("Ref", .string "B")]) (.string "bus") :=
    (Cloud.evaluates_iff h hd hm).mpr ⟨1, rfl⟩
  have hsub : cloud.Evaluates (.first []) call (.string "\x7bv=bus,bus,region") := by
    refine (Cloud.evaluates_iff h hd hm).mpr ⟨1, ?_⟩
    let vars : Dict Json := [("V.W", .string "bus")]
    rw [Plain.evaluateAt, @Plain.value_written _ template bindings vars call hcall rfl, hparse]
    have htext : "\x7bv=" ++ ("bus" ++ ("," ++ ("bus" ++ ("," ++ ("region" ++ "")))))
        = "\x7bv=bus,bus,region" := by decide +kernel
    exact congrArg (fun text => some (Json.string text)) htext
  refine ⟨hsub, ((Cloud.substitution_iff_join hd h hm hcall ?_ _).1).mp hsub⟩
  intro b hb
  obtain rfl := List.mem_singleton.mp hb
  exact ⟨_, hv⟩

end StackExpr
