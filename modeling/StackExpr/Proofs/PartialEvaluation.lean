import StackExpr.Proofs.CallFree
import StackExpr.Proofs.NestedOutput
/-!
# Partial evaluation

Where an expression is evaluated as a part of another one, its value may stand in its place: **what
the whole evaluates to stays the same** (`Cloud.evaluates_of_replaced`).

Not every place in an expression is one where a part is evaluated. The arguments of a call are a
list of their own, and some of them are taken as they are written (`Function.evaluates`); an object
with one key is a call or not, whatever the value of the key is. `Replaced` tells the places where a
part is evaluated, from the outside to the inside.

The value that is put in must hold no calls, or it would be evaluated again. It may be a list or an
object even where it is the argument of a call.
-/

namespace StackExpr

/-! ## Places -/

/-- The function evaluates its argument at this position, counted from zero; the others it takes as
they are written. -/
def Function.evaluates : Function → (position : Nat) → Bool
  | .getAtt, 1 | .join, 1 | .split, 1 | .select, 0 | .select, 1 | .sub, 1 | .importValue, 0 => true
  | _, _ => false

/-- One place of an expression where `e` is evaluated has been given `v` instead. -/
inductive Replaced (e v : Json) : Json → Json → Prop where
  | here : Replaced e v e v
  /-- In an element of a list. -/
  | element {a a' : Json} (before after : List Json) (h : Replaced e v a a') :
    Replaced e v (.array (before ++ a :: after)) (.array (before ++ a' :: after))
  /-- In the value of a key of an object that is no call. -/
  | field {a a' : Json} {name : String} (before after : Dict Json)
    (hcall : Function.isCall ((before ++ (name, a) :: after).map Prod.fst) = false)
    (h : Replaced e v a a') :
    Replaced e v (.object (before ++ (name, a) :: after)) (.object (before ++ (name, a') :: after))
  /-- In one of the arguments of a call. -/
  | argument {a a' : Json} {f : Function} (before after : List Json)
    (hf : f.evaluates before.length = true) (h : Replaced e v a a') :
    Replaced e v (.object [(f.name, .array (before ++ a :: after))])
      (.object [(f.name, .array (before ++ a' :: after))])
  /-- In the only argument of a call, without a list around it. -/
  | single {a a' : Json} {f : Function} (hf : f.evaluates 0 = true)
    (ha : ∀ elements, a ≠ .array elements) (h : Replaced e v a a') :
    Replaced e v (.object [(f.name, a)]) (.object [(f.name, a')])

/-! ## Expressions of values -/

namespace Expr

/-- The expression of a call. -/
theorem ofJson_call (f : Function) (args : Json) :
    ofJson (.object [(f.name, args)]) = call f (arguments args (ofJson args)) := by
  rw [ofJson, if_pos (Function.isCallName_name f), callNamed, Function.ofName?_name]

theorem arguments_array (vs : List Json) :
    arguments (.array vs) (ofJson (.array vs)) = vs.map fun v => (v, ofJson v) := by
  show vs.zip (ofElements vs) = _
  induction vs with
  | nil => rfl
  | cons v vs ih => rw [ofElements, List.zip_cons_cons, ih, List.map_cons]

theorem arguments_of_ne {v : Json} (h : ∀ elements, v ≠ .array elements) (e : Expr) :
    arguments v e = [(v, e)] := by
  unfold arguments
  split
  · exact absurd rfl (h _)
  · rfl

end Expr

namespace Plain

variable {m : Meaning}

mutual

/-- A value without calls is its own value. -/
theorem value_ofJson (m : Meaning) : (v : Json) → v.CallFree → value m (Expr.ofJson v) = some v
  | .null, _ => rfl
  | .bool _, _ => rfl
  | .number _, _ => rfl
  | .string _, _ => rfl
  | .array elements, h => by
    show (values m (Expr.ofElements elements)).bind _ = _
    rw [values_ofElements m elements h]
    rfl
  | .object fields, h => by
    rw [Expr.ofJson_object h.1]
    show (fieldValues m (Expr.ofFields fields)).bind _ = _
    rw [fieldValues_ofFields m fields h.2]
    rfl

theorem values_ofElements (m : Meaning) : (vs : List Json) → Json.CallFreeElements vs →
    values m (Expr.ofElements vs) = some vs
  | [], _ => rfl
  | v :: vs, h => by
    rw [Expr.ofElements, values, value_ofJson m v h.1, values_ofElements m vs h.2]
    rfl

theorem fieldValues_ofFields (m : Meaning) : (fs : Dict Json) → Json.CallFreeFields fs →
    fieldValues m (Expr.ofFields fs) = some fs
  | [], _ => rfl
  | (k, v) :: fs, h => by
    rw [Expr.ofFields, fieldValues, value_ofJson m v h.1, fieldValues_ofFields m fs h.2]
    rfl

end

/-! ## One place after the other -/

/-- An argument that is evaluated counts by its value alone. -/
theorem below_call {f : Function} (before after : List (Json × Expr))
    (hf : f.evaluates before.length = true) (a a' : Json) {e e' : Expr}
    (h : Below (value m e) (value m e')) : Below (value m (Expr.call f (before ++ (a, e) :: after)))
      (value m (Expr.call f (before ++ (a', e') :: after))) := by
  rcases before with _ | ⟨⟨x, ex⟩, _ | ⟨y, before⟩⟩
  · cases f with
    | select =>
      rcases after with _ | ⟨b, _ | ⟨c, after⟩⟩
      · exact .of_none _
      · exact h.bind fun _ => .refl _
      · exact .of_none _
    | importValue =>
      rcases after with _ | ⟨b, after⟩
      · exact h.bind fun _ => .refl _
      · exact .of_none _
    | _ => cases hf
  · rcases after with _ | ⟨c, after⟩
    · cases f with
      | select =>
        exact (Below.refl _).bind fun _ => (Below.refl _).bind fun _ => h.bind fun _ => .refl _
      | ref => cases hf
      | importValue => cases hf
      | _ =>
        -- The others take the first argument as it is written, and it must be a text.
        cases x with
        | string text => exact h.bind fun _ => .refl _
        | _ => exact .of_none _
    · cases f <;> cases x <;> exact .of_none _
  · cases f <;> cases hf

section Places

variable {a a' : Json} (h : Below (value m (Expr.ofJson a)) (value m (Expr.ofJson a')))

include h

theorem below_element (before after : List Json) :
    Below (values m (Expr.ofElements (before ++ a :: after)))
      (values m (Expr.ofElements (before ++ a' :: after))) := by
  induction before with
  | nil => exact h.bind fun _ => .refl _
  | cons first before ih => exact (Below.refl _).bind fun _ => ih.bind fun _ => .refl _

theorem below_field (name : String) (before after : Dict Json) :
    Below (fieldValues m (Expr.ofFields (before ++ (name, a) :: after)))
      (fieldValues m (Expr.ofFields (before ++ (name, a') :: after))) := by
  induction before with
  | nil => exact h.bind fun _ => .refl _
  | cons first before ih => exact (Below.refl _).bind fun _ => ih.bind fun _ => .refl _

theorem below_argument {f : Function} (before after : List Json)
    (hf : f.evaluates before.length = true) :
    Below (value m (Expr.ofJson (.object [(f.name, .array (before ++ a :: after))])))
      (value m (Expr.ofJson (.object [(f.name, .array (before ++ a' :: after))]))) := by
  rw [Expr.ofJson_call, Expr.ofJson_call, Expr.arguments_array, Expr.arguments_array,
    List.map_append, List.map_append]
  exact below_call _ _ (by rwa [List.length_map]) a a' h

/-- An argument without a list around it is a text if the call has a value, so what is put in for it
is no list either. -/
theorem below_single {f : Function} (hf : f.evaluates 0 = true)
    (ha : ∀ elements, a ≠ .array elements) :
    Below (value m (Expr.ofJson (.object [(f.name, a)])))
      (value m (Expr.ofJson (.object [(f.name, a')]))) := by
  rw [Expr.ofJson_call, Expr.ofJson_call, Expr.arguments_of_ne ha]
  intro w hw
  have ha' : ∀ elements, a' ≠ .array elements := by
    rintro elements rfl
    cases f with
    | importValue =>
      obtain ⟨v, hv, hw⟩ := Option.bind_eq_some_iff.mp hw
      obtain ⟨vs, -, hvs⟩ := Option.bind_eq_some_iff.mp (h v hv)
      cases hvs
      cases hw
    | select => cases hw
    | _ => cases hf
  rw [Expr.arguments_of_ne ha']
  exact below_call [] [] hf a a' h w hw

end Places

/-- **Where a part is evaluated, its value may stand in its place.** -/
theorem below_of_replaced {e v c c' : Json} (hr : Replaced e v c c') (hv : v.CallFree)
    (he : value m (Expr.ofJson e) = some v) :
    Below (value m (Expr.ofJson c)) (value m (Expr.ofJson c')) := by
  induction hr with
  | here =>
    rw [he, value_ofJson m v hv]
    exact .refl _
  | element before after h ih => exact (below_element ih before after).bind fun _ => .refl _
  | field before after hcall h ih =>
    rw [Expr.ofJson_object hcall, Expr.ofJson_object (by rwa [List.map_append] at hcall ⊢)]
    exact (below_field ih _ before after).bind fun _ => .refl _
  | argument before after hf h ih => exact below_argument ih before after hf
  | single hf ha h ih => exact below_single ih hf ha

theorem gives_of_replaced {cloud : Cloud} {st : Stack} {e v c c' w : Json}
    (hr : Replaced e v c c') (hv : v.CallFree) (he : Gives cloud st e v)
    (hc : Gives cloud st c w) : Gives cloud st c' w := by
  obtain ⟨n, hn⟩ := he
  obtain ⟨k, hk⟩ := hc
  have he := evaluateAt_mono_le cloud (show n ≤ n + k + 1 by omega) st _ _ hn
  have hc := evaluateAt_mono_le cloud (show k ≤ n + k + 1 by omega) st _ _ hk
  exact ⟨n + k + 1, below_of_replaced hr hv he w hc⟩

end Plain

/-! ## Runs -/

/-- **Partial evaluation.** In an evaluator over a cloud whose requests do not fail, let an
expression evaluate to a value without calls, and another one to some value. Where the former is
evaluated as a part of the latter, its value may stand in its place: the other one still evaluates
to the same value, and in no run does it end in another way. -/
theorem Cloud.evaluates_of_replaced {cloud : Cloud} (hd : cloud.DistinctExports) {ev : Evaluator}
    {e v c c' w : Json} (hr : Replaced e v c c') (hv : v.CallFree) (he : cloud.Evaluates ev e v)
    (hc : cloud.Evaluates ev c w) :
    cloud.Evaluates ev c' w ∧ ∀ log tasks s r own, Run ⟨cloud, .none⟩ log tasks s →
      Made tasks ev → ⟨.evaluate ev c', .done r, own⟩ ∈ tasks → r = .ok w := by
  have hgives := Plain.gives_of_replaced hr hv (he.gives hd) (hc.gives hd)
  obtain ⟨_, _, _, _, h, hm, -⟩ := hc
  refine ⟨(Cloud.evaluates_iff h hd hm).mpr hgives, fun log tasks s r own h' hm' ht => ?_⟩
  exact (h'.gives_of_done hd hm' ht).mpr hgives

/-- A text that is split and joined again. What it is split into is given instead, and it is a list
among the arguments of a call. -/
theorem evaluates_of_replaced_of_split :
    let e : Json := .object [("Fn::Split", .array [.string "g", .object [("Ref",
      .string "AWS::Region")]])]
    let v : Json := .array [.string "re", .string "ion"]
    let whole (list : Json) : Json := .object [("Fn::Join", .array [.string "-", list])]
    Cloud.DistinctExports {} ∧ Replaced e v (whole e) (whole v) ∧ v.CallFree ∧
      Cloud.Evaluates {} (.first []) e v ∧
      Cloud.Evaluates {} (.first []) (whole e) (.string "re-ion") ∧
      Cloud.Evaluates {} (.first []) (whole v) (.string "re-ion") := by
  intro e v whole
  have hd : Cloud.DistinctExports {} := .nil
  have h := Run.first ⟨{}, .none⟩ []
  have hm : Made (Task.first [] ::ₘ 0) (.first []) := .first (Multiset.mem_cons_self _ _)
  have hr : Replaced e v (whole e) (whole v) := .argument (f := .join) [.string "-"] [] rfl .here
  have hv : v.CallFree := ⟨trivial, trivial, trivial⟩
  have hpieces : pieces "g" "region" = ["re", "ion"] := by decide +kernel
  have he : Cloud.Evaluates {} (.first []) e v := (Cloud.evaluates_iff h hd hm).mpr
    ⟨1, congrArg (fun texts : List String => some (Json.array (texts.map Json.string))) hpieces⟩
  have hc : Cloud.Evaluates {} (.first []) (whole e) (.string "re-ion") :=
    (Cloud.evaluates_iff h hd hm).mpr
      ⟨1, congrArg (fun texts : List String =>
        (joined "-" (texts.map Json.string)).toOption) hpieces⟩
  exact ⟨hd, hr, hv, he, hc, (Cloud.evaluates_of_replaced hd hr hv he hc).1⟩

end StackExpr
