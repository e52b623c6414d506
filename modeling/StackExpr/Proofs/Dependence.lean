import StackExpr.Proofs.Evaluators
import StackExpr.Proofs.Job.Indifferent
import StackExpr.Template.References
/-!
# What a resource depends on

The properties of a resource may refer to another one by its id: by a name, by an attribute, or in a
placeholder of a substitution. **If a resource is not among the references to an id, its properties
come to the same result whatever is deployed under the id** (`Evaluator.references_complete`), apart
from placeholders, which are no strings of their own (`references_not_complete`), and from outputs,
whose expressions stand elsewhere in the template.

An evaluation looks up what calls and placeholders stand for, and nothing else (`Expr.LooksUp`). So
it is indifferent to what it does not look up (`indifferent_evaluate`), and a call that looks up an
id holds the id as a string (`Expr.mem_strings_of_looksUp`).
-/

namespace StackExpr

open Job

/-! ## Lookups -/

/-- What an evaluation looks up: a name or an attribute, for a call or in place of a placeholder. -/
inductive Lookup where
  | ref (id : String)
  | getAtt (id : String) (attr : Option String)
  | placeholder (target : Sub.Target)

namespace Lookup

/-- The id that is looked up. -/
def id : Lookup → String
  | ref id => id
  | getAtt id _ => id
  | placeholder (.ref id) => id
  | placeholder (.getAtt id _) => id

/-- The attribute that is looked up. -/
def attr? : Lookup → Option String
  | ref _ => none
  | getAtt _ attr => attr
  | placeholder (.ref _) => none
  | placeholder (.getAtt _ attr) => some attr

/-- A placeholder is looked up. -/
def InPlaceholder : Lookup → Prop
  | placeholder _ => True
  | _ => False

/-- An output of the stack is looked up, or one of a deployed stack nested in it. -/
def OnOutputs (nested : Dict NestedStack) (l : Lookup) : Prop :=
  ∃ attr, l.attr? = some attr ∧ (l.id = "Outputs" ∨
    ∃ output name template inner, attr = "Outputs." ++ output ∧
      NestedStack.find? l.id nested = some (.mk (some name) template inner))

/-- The job for what is looked up. -/
def job (r : Resolver) : Lookup → Job Json
  | ref id => r.ref id
  | getAtt id attr => r.getAtt id attr
  | placeholder target => r.target target

end Lookup

namespace Expr

/-- What the evaluation of an expression may look up, whatever the cloud answers. -/
inductive LooksUp (r : Resolver) : Expr → Lookup → Prop where
  | element {elements : List Expr} {e : Expr} {l : Lookup} (he : e ∈ elements)
    (h : LooksUp r e l) : LooksUp r (.list elements) l
  | field {fields : List (String × Expr)} {f : String × Expr} {l : Lookup} (hf : f ∈ fields)
    (h : LooksUp r f.2 l) : LooksUp r (.record fields) l
  | ref (id : String) : LooksUp r (.ref id) (.ref id)
  | getAtt (id : String) : LooksUp r (.getAtt id) (.getAtt id none)
  | attrName {id : String} {attr : Expr} {l : Lookup} (h : LooksUp r attr l) :
    LooksUp r (.getAttOf id attr) l
  /-- An attribute with a name that the expression for it may come to. -/
  | getAttOf (id : String) {attr : Expr} {name : String}
    (hn : (attr.evaluate r).MayEnd (.ok (.string name))) :
    LooksUp r (.getAttOf id attr) (.getAtt id (some name))
  | joined {delimiter : String} {items : Expr} {l : Lookup} (h : LooksUp r items l) :
    LooksUp r (.join delimiter items) l
  | split {delimiter : String} {text : Expr} {l : Lookup} (h : LooksUp r text l) :
    LooksUp r (.split delimiter text) l
  | index {index items : Expr} {l : Lookup} (h : LooksUp r index l) :
    LooksUp r (.select index items) l
  | selected {index items : Expr} {l : Lookup} (h : LooksUp r items l) :
    LooksUp r (.select index items) l
  | sub {template name : String} (hn : .placeholder name ∈ Sub.parse template) :
    LooksUp r (.sub template) (.placeholder (.ofPlaceholder name))
  | binding {template : String} {bindings : Expr} {l : Lookup} (h : LooksUp r bindings l) :
    LooksUp r (.subWith template bindings) l
  /-- A placeholder that is none of the variables that there may be. -/
  | subWith {template name : String} {bindings : Expr} {vars : Dict Json}
    (hv : (bindings.evaluate r).MayEnd (.ok (.object vars)))
    (hn : .placeholder name ∈ Sub.parse template) (hfree : vars.get? name = none) :
    LooksUp r (.subWith template bindings) (.placeholder (.ofPlaceholder name))
  | exportName {name : Expr} {l : Lookup} (h : LooksUp r name l) :
    LooksUp r (.importValue name) l

end Expr

/-! ## Indifferent evaluations -/

section Evaluate

variable {id : String} {r : Resolver}

theorem indifferent_ofExcept {α : Type} (r : Except EvalError α) :
    (ofExcept r).Indifferent id := by
  cases r <;> trivial

theorem indifferent_ofOption {α : Type} (e : EvalError) (o : Option α) :
    (ofOption e o).Indifferent id := by
  cases o <;> trivial

theorem indifferent_substitute (r : Resolver) (vars : Dict Json) : (segments : List Sub.Segment) →
    (∀ name, .placeholder name ∈ segments → vars.get? name = none →
      (r.target (.ofPlaceholder name)).Indifferent id) →
    (substitute r vars segments).Indifferent id
  | [], _ => trivial
  | .literal text :: segments, h => by
    have hrest := indifferent_substitute r vars segments
      fun name hn => h name (List.mem_cons_of_mem _ hn)
    exact indifferent_bind hrest fun _ _ => trivial
  | .placeholder name :: segments, h => by
    have hrest := indifferent_substitute r vars segments
      fun name hn => h name (List.mem_cons_of_mem _ hn)
    have htarget :
        ((vars.get? name).elim (r.target (.ofPlaceholder name)) pure).Indifferent id := by
      cases hv : vars.get? name with
      | some v => trivial
      | none => exact h name List.mem_cons_self hv
    rw [substitute_placeholder]
    refine indifferent_bind htarget fun v _ => ?_
    refine indifferent_bind (indifferent_ofExcept _) fun text _ => ?_
    exact indifferent_bind hrest fun _ _ => trivial

mutual

/-- **An evaluation is indifferent to a resource if all that it looks up is.** -/
theorem indifferent_evaluate (himport : ∀ name, (r.importValue name).Indifferent id) :
    (e : Expr) → (∀ l, e.LooksUp r l → (l.job r).Indifferent id) → (e.evaluate r).Indifferent id
  | .scalar v, _ => trivial
  | .list elements, h => by
    have hparts := indifferent_evaluateParts himport elements fun e he l hl => h l (.element he hl)
    have hall : (all (Expr.evaluateParts r elements)).Indifferent id :=
      ⟨indifferentAll_iff.mpr hparts, fun _ _ => trivial⟩
    exact indifferent_bind hall fun _ _ => trivial
  | .record fields, h =>
    indifferent_bind (indifferent_evaluateFields himport fields fun f hf l hl => h l (.field hf hl))
      fun _ _ => trivial
  | .ref id, h => h _ (.ref id)
  | .getAtt id, h => h _ (.getAtt id)
  | .getAttOf id attr, h => by
    refine indifferent_bind (indifferent_evaluate himport attr fun l hl => h l (.attrName hl))
      fun v hv => ?_
    cases v with
    | string name => exact h _ (.getAttOf id hv)
    | _ => trivial
  | .join _ items, h =>
    indifferent_bind (indifferent_evaluate himport items fun l hl => h l (.joined hl)) fun _ _ =>
      indifferent_bind (indifferent_ofExcept _) fun _ _ => indifferent_ofExcept _
  | .split _ text, h =>
    indifferent_bind (indifferent_evaluate himport text fun l hl => h l (.split hl)) fun _ _ =>
      indifferent_bind (indifferent_ofExcept _) fun _ _ => trivial
  | .select index items, h => by
    have hindex := indifferent_evaluate himport index fun l hl => h l (.index hl)
    have hitems := indifferent_evaluate himport items fun l hl => h l (.selected hl)
    refine indifferent_bind hindex fun _ _ => ?_
    refine indifferent_bind (indifferent_ofExcept _) fun _ _ => ?_
    refine indifferent_bind hitems fun _ _ => ?_
    exact indifferent_bind (indifferent_ofExcept _) fun _ _ => indifferent_ofExcept _
  | .sub template, h => by
    have hsubstitute := indifferent_substitute r [] (Sub.parse template)
      fun name hn _ => h _ (.sub hn)
    exact indifferent_bind hsubstitute fun _ _ => trivial
  | .subWith template bindings, h => by
    refine indifferent_bind (indifferent_evaluate himport bindings fun l hl => h l (.binding hl))
      fun v hv => ?_
    cases v with
    | object vars =>
      have hsubstitute := indifferent_substitute r vars (Sub.parse template)
        fun name hn hfree => h _ (.subWith hv hn hfree)
      show ((substitute r vars (Sub.parse template)).bind _).Indifferent _
      exact indifferent_bind hsubstitute fun _ _ => trivial
    | _ => trivial
  | .importValue name, h =>
    indifferent_bind (indifferent_evaluate himport name fun l hl => h l (.exportName hl)) fun _ _ =>
      indifferent_bind (indifferent_ofExcept _) fun _ _ => himport _
  | .invalid e, _ => trivial

theorem indifferent_evaluateParts (himport : ∀ name, (r.importValue name).Indifferent id) :
    (es : List Expr) → (∀ e ∈ es, ∀ l, e.LooksUp r l → (l.job r).Indifferent id) →
    ∀ part ∈ Expr.evaluateParts r es, part.Indifferent id
  | [], _ => fun _ hpart => absurd hpart List.not_mem_nil
  | e :: es, h => by
    obtain ⟨he, hes⟩ := List.forall_mem_cons.mp h
    exact List.forall_mem_cons.mpr
      ⟨indifferent_evaluate himport e he, indifferent_evaluateParts himport es hes⟩

theorem indifferent_evaluateFields (himport : ∀ name, (r.importValue name).Indifferent id) :
    (fields : List (String × Expr)) →
    (∀ f ∈ fields, ∀ l, f.2.LooksUp r l → (l.job r).Indifferent id) →
    (Expr.evaluateFields r fields).Indifferent id
  | [], _ => trivial
  | (_, e) :: fields, h => by
    obtain ⟨he, hfields⟩ := List.forall_mem_cons.mp h
    refine indifferent_bind (indifferent_evaluate himport e he) fun _ _ => ?_
    exact indifferent_bind (indifferent_evaluateFields himport fields hfields) fun _ _ => trivial

end

end Evaluate

namespace Evaluator

variable {id : String} {evaluate : Evaluate} {ev : Evaluator}

/-- What is deployed under another id does not depend on the resource of an id. -/
theorem indifferent_deployed? {other : String} (hne : other ≠ id) {α : Type}
    {f : Option StackResource → Job α} (hf : ∀ resource, (f resource).Indifferent id) :
    ((ev.deployed? other).bind f).Indifferent id := by
  show Job.Indifferent id (.ask ev.caches .inventory .arriving fun resources : List StackResource =>
    f (resources.find? fun r => r.logicalId == other))
  refine fun resources => ⟨?_, hf _⟩
  show f ((StackResource.othersThan id resources).find? _) = f (resources.find? _)
  rw [StackResource.othersThan, List.find?_filter]
  refine congrArg f (congrArg (List.find? · resources) (funext fun r => ?_))
  by_cases hr : r.logicalId = other
  · simp [hr, hne]
  · simp [hr]

theorem indifferent_nestedOutput? {other output : String}
    (h : ∀ name template inner,
      NestedStack.find? other ev.nested ≠ some (.mk (some name) template inner)) :
    (nestedOutput? evaluate ev other output).Indifferent id := by
  unfold nestedOutput? nestedEvaluator?
  split
  · next name template inner hf => exact absurd hf (h name template inner)
  · trivial

theorem indifferent_attribute? {other : String} {attr : Option String} (hne : other ≠ id)
    (ho : ¬ (Lookup.getAtt other attr).OnOutputs ev.nested) :
    (attribute? evaluate ev other attr).Indifferent id := by
  have hother : ∀ output, other = "Outputs" → attr = some output → False :=
    fun output hid hattr => ho ⟨output, hattr, Or.inl hid⟩
  rw [attribute?_of_ne hother]
  refine indifferent_deployed? hne fun resource => ?_
  cases resource with
  | none => trivial
  | some resource =>
    show (deployedAttribute? evaluate ev other attr resource).Indifferent id
    unfold deployedAttribute?
    split
    · next output _ hdrop =>
      obtain ⟨name, hattr, hdrop⟩ := Option.bind_eq_some_iff.mp hdrop
      have hname := Text.eq_append_of_dropStart? hdrop
      exact indifferent_nestedOutput? fun stackName template inner hf =>
        ho ⟨name, hattr, Or.inr ⟨output, stackName, template, inner, hname, hf⟩⟩
    · trivial
    · exact indifferent_bind (indifferent_ofExcept _) fun _ _ => trivial

/-- **What a stack looks up under another id, and not in its outputs, does not depend on the
resource of an id.** -/
theorem indifferent_lookup {l : Lookup} (hne : l.id ≠ id) (ho : ¬ l.OnOutputs ev.nested) :
    (l.job (ev.resolver evaluate)).Indifferent id := by
  have href : ∀ other, other ≠ id → ((ev.resolver evaluate).ref other).Indifferent id := by
    intro other hne
    refine indifferent_bind ?_ fun _ _ => indifferent_ofOption _ _
    unfold ref?
    split
    · exact fun suffix => ⟨rfl, trivial⟩
    · split
      · trivial
      · trivial
      · exact indifferent_attribute? hne fun ⟨_, hattr, _⟩ => nomatch hattr
  have hgetAtt : ∀ other attr, other ≠ id → ¬ (Lookup.getAtt other attr).OnOutputs ev.nested →
      ((ev.resolver evaluate).getAtt other attr).Indifferent id := fun other attr hne ho =>
    indifferent_bind (indifferent_attribute? hne ho) fun _ _ => indifferent_ofOption _ _
  match l with
  | .ref other => exact href other hne
  | .getAtt other attr => exact hgetAtt other attr hne ho
  | .placeholder (.ref other) => exact href other hne
  | .placeholder (.getAtt other attr) => exact hgetAtt other (some attr) hne ho

theorem indifferent_importValue (name : String) :
    ((ev.resolver evaluate).importValue name).Indifferent id := by
  intro found
  refine ⟨rfl, ?_⟩
  match found with
  | none => trivial
  | some ⟨_, none⟩ => trivial
  | some ⟨_, some _⟩ => trivial

end Evaluator

/-! ## Calls hold their ids as strings -/

theorem Json.strings_subset_of_mem {v : Json} {vs : List Json} (h : v ∈ vs) :
    v.strings ⊆ stringsOfElements vs := by
  induction vs with
  | nil => exact absurd h List.not_mem_nil
  | cons v' vs ih =>
    rcases List.mem_cons.mp h with rfl | h
    · exact fun s hs => List.mem_append_left _ hs
    · exact fun s hs => List.mem_append_right _ (ih h hs)

namespace Expr

variable {r : Resolver} {l : Lookup}

theorem LooksUp.of_argument {v : Json} {e : Expr} {a : Json × Expr} (ha : a ∈ arguments v e)
    (h : a.2.LooksUp r l) : e.LooksUp r l := by
  unfold arguments at ha
  split at ha
  · exact .element (List.of_mem_zip ha).2 h
  · rwa [List.mem_singleton.mp ha] at h

theorem mem_strings_of_argument {v : Json} {e : Expr} {a : Json × Expr} {s : String}
    (ha : a ∈ arguments v e) (hs : a.1 = .string s) : s ∈ v.strings := by
  have hmem : s ∈ a.1.strings := by
    rw [hs]
    exact List.mem_singleton.mpr rfl
  unfold arguments at ha
  split at ha
  · exact Json.strings_subset_of_mem (List.of_mem_zip ha).1 hmem
  · rwa [List.mem_singleton.mp ha] at hmem

/-- What a call looks up, and not for a placeholder, is one of its arguments, or is looked up in
one. -/
theorem LooksUp.of_call {f : Function} {args : List (Json × Expr)} (h : (call f args).LooksUp r l)
    (hl : ¬ l.InPlaceholder) : ∃ a ∈ args, a.1 = .string l.id ∨ a.2.LooksUp r l := by
  unfold call at h
  split at h
  · cases h
    exact ⟨_, List.mem_cons_self, Or.inl rfl⟩
  · cases h
    exact ⟨_, List.mem_cons_self, Or.inl rfl⟩
  · cases h with
    | attrName h => exact ⟨_, List.mem_cons_of_mem _ List.mem_cons_self, Or.inr h⟩
    | getAttOf id hn => exact ⟨_, List.mem_cons_self, Or.inl rfl⟩
  · cases h with
    | joined h => exact ⟨_, List.mem_cons_of_mem _ List.mem_cons_self, Or.inr h⟩
  · cases h with
    | split h => exact ⟨_, List.mem_cons_of_mem _ List.mem_cons_self, Or.inr h⟩
  · cases h with
    | index h => exact ⟨_, List.mem_cons_self, Or.inr h⟩
    | selected h => exact ⟨_, List.mem_cons_of_mem _ List.mem_cons_self, Or.inr h⟩
  · cases h
    exact absurd trivial hl
  · cases h with
    | binding h => exact ⟨_, List.mem_cons_of_mem _ List.mem_cons_self, Or.inr h⟩
    | subWith hv hn hfree => exact absurd trivial hl
  · cases h with
    | exportName h => exact ⟨_, List.mem_cons_self, Or.inr h⟩
  · cases h

mutual

/-- **What is looked up for a call is one of the strings of the value.** -/
theorem mem_strings_of_looksUp (hl : ¬ l.InPlaceholder) : (v : Json) → (ofJson v).LooksUp r l →
    l.id ∈ v.strings
  | .null, h => nomatch h
  | .bool _, h => nomatch h
  | .number _, h => nomatch h
  | .string _, h => nomatch h
  | .array elements, h => by
    cases h with
    | element he h => exact mem_strings_of_element hl elements he h
  | .object [], h => by
    cases h with
    | field hf h => exact absurd hf List.not_mem_nil
  | .object [(name, value)], h => by
    have hvalue := mem_strings_of_looksUp hl value
    show l.id ∈ value.strings ++ []
    rw [List.append_nil]
    rw [ofJson] at h
    split at h
    · unfold callNamed at h
      split at h
      · obtain ⟨a, ha, hid | ha'⟩ := h.of_call hl
        · exact mem_strings_of_argument ha hid
        · exact hvalue (ha'.of_argument ha)
      · cases h
    · cases h with
      | field hf h =>
        rw [List.mem_singleton.mp hf] at h
        exact hvalue h
  | .object (f :: f' :: fs), h => by
    cases h with
    | field hf h => exact mem_strings_of_field hl (f :: f' :: fs) hf h

theorem mem_strings_of_element (hl : ¬ l.InPlaceholder) : (vs : List Json) → {e : Expr} →
    e ∈ ofElements vs → e.LooksUp r l → l.id ∈ Json.stringsOfElements vs
  | [], _, he, _ => absurd he List.not_mem_nil
  | v :: vs, _, he, h => by
    rcases List.mem_cons.mp he with rfl | he
    · exact List.mem_append_left _ (mem_strings_of_looksUp hl v h)
    · exact List.mem_append_right _ (mem_strings_of_element hl vs he h)

theorem mem_strings_of_field (hl : ¬ l.InPlaceholder) : (fs : Dict Json) → {f : String × Expr} →
    f ∈ ofFields fs → f.2.LooksUp r l → l.id ∈ Json.stringsOfFields fs
  | [], _, hf, _ => absurd hf List.not_mem_nil
  | (_, v) :: fs, _, hf, h => by
    rcases List.mem_cons.mp hf with rfl | hf
    · exact List.mem_append_left _ (mem_strings_of_looksUp hl v h)
    · exact List.mem_append_right _ (mem_strings_of_field hl fs hf h)

end

end Expr

/-! ## References -/

namespace Evaluator

/-- What the evaluation of a value may look up, whatever the cloud answers. -/
def MayLookUp (ev : Evaluator) (v : Json) (l : Lookup) : Prop :=
  (Expr.ofJson v).LooksUp (ev.resolver (evaluateAt ev.depth)) l

variable {ev : Evaluator} {id name : String} {resource : Resource}

/-- A resource whose properties look up an id for a call is among the references to the id. -/
theorem mem_references_of_mayLookUp (hmem : (name, resource) ∈ ev.template.resources)
    (hne : name ≠ id) {l : Lookup} (hl : ev.MayLookUp (.object resource.properties) l)
    (hcall : ¬ l.InPlaceholder) (hid : l.id = id) :
    (name, resource) ∈ ev.template.references id := by
  have hstring : l.id ∈ Json.stringsOfFields resource.properties :=
    Expr.mem_strings_of_looksUp hcall (.object resource.properties) hl
  have hmentions : resource.mentions id = true :=
    List.contains_iff_mem.mpr (hid ▸ List.mem_cons_of_mem _ (List.mem_append_left _ hstring))
  exact List.mem_filter.mpr ⟨hmem, by simp [hne, hmentions]⟩

/-- **References are complete.** A resource whose properties look up an id for a call is among the
references to the id. So a resource that is not, and does not look up the id in a placeholder either
or anything in outputs, does not depend on what is deployed under the id: over two clouds that
differ only in that, its properties come to the same result, whichever requests fail. What was read
before may differ in the same way, and then what has been read afterwards differs only in that. -/
theorem references_complete (ev : Evaluator) (hmem : (name, resource) ∈ ev.template.resources)
    (hne : name ≠ id) :
    (∀ l, ev.MayLookUp (.object resource.properties) l → ¬ l.InPlaceholder → l.id = id →
      (name, resource) ∈ ev.template.references id) ∧
    ((name, resource) ∉ ev.template.references id →
      (∀ l, ev.MayLookUp (.object resource.properties) l →
        ¬ l.OnOutputs ev.nested ∧ (l.InPlaceholder → l.id ≠ id)) →
      ∀ (cloud cloud' : Cloud) (faults : Faults) (s s' : Session),
        cloud.without id = cloud'.without id → s.without id = s'.without id →
        let job := ev.evaluate (.object resource.properties)
        (job.run ⟨cloud, faults⟩ s).1 = (job.run ⟨cloud', faults⟩ s').1 ∧
          (job.run ⟨cloud, faults⟩ s).2.without id
            = (job.run ⟨cloud', faults⟩ s').2.without id) := by
  refine ⟨fun l hl hcall hid => mem_references_of_mayLookUp hmem hne hl hcall hid,
    fun hunlisted hlookups cloud cloud' faults s s' hclouds hs => ?_⟩
  intro job
  have hindifferent : job.Indifferent id := by
    refine indifferent_evaluate (fun name => indifferent_importValue name) _ fun l hl => ?_
    obtain ⟨houtputs, hplaceholder⟩ := hlookups l hl
    refine indifferent_lookup (fun hid => ?_) houtputs
    by_cases hin : l.InPlaceholder
    · exact hplaceholder hin hid
    · exact hunlisted (mem_references_of_mayLookUp hmem hne hl hin hid)
  have hrun := run_without hindifferent ⟨cloud, faults⟩ s
  have hrun' := run_without hindifferent ⟨cloud', faults⟩ s'
  have hclients : Client.without ⟨cloud, faults⟩ id = Client.without ⟨cloud', faults⟩ id :=
    congrArg (Client.mk · faults) hclouds
  rw [hclients, hs, hrun'] at hrun
  exact ⟨(Prod.mk.inj hrun).1.symm, (Prod.mk.inj hrun).2.symm⟩

end Evaluator

/-! ## A topic that is named after other resources -/

/-- A stack with a topic that has this name. -/
def Evaluator.naming (topic : Json) : Evaluator :=
  let template : Template :=
    { resources := [("R", { type := "AWS::SNS::Topic", properties := [("Name", topic)] })] }
  ⟨"stack", template, .first, [], 0, depthFor 0 template []⟩

/-- The cloud with a bucket deployed under `X`, and another one under `Y`. -/
def Cloud.withBuckets (c : Cloud) (x : String) : Cloud :=
  c.withStack "stack" [⟨"X", some x, "AWS::S3::Bucket"⟩, ⟨"Y", some "other", "AWS::S3::Bucket"⟩]

/-- What the properties of the topic come to over a cloud. -/
def Evaluator.namedOver (topic : Json) (cloud : Cloud) : Except Failure Json :=
  let s : Session := (Session.openStack {} "stack" "region").2
  (((naming topic).evaluate (.object [("Name", topic)])).run ⟨cloud, .none⟩ s).1

/-- A substitution of two placeholders, one of which is a variable, looks up the other one. -/
theorem Expr.LooksUp.of_variable {r : Resolver} {l : Lookup}
    (h : (Expr.subWith "$\x7bY\x7d-$\x7bX\x7d"
      (.record [("X", .scalar (.string "text"))])).LooksUp r l) : l = .placeholder (.ref "Y") := by
  have hparse : Sub.parse "$\x7bY\x7d-$\x7bX\x7d"
      = [.placeholder "Y", .literal "-", .placeholder "X"] := by decide +kernel
  cases h with
  | binding h =>
    cases h with
    | field hf h =>
      rw [List.mem_singleton.mp hf] at h
      cases h
  | @subWith _ name _ vars hv hn hfree =>
    have hvars : (Except.ok (Json.object vars) : Except Failure Json)
        = .ok (.object [("X", .string "text")]) := hv (fun r => r = _) rfl
    cases hvars
    rw [hparse] at hn
    have hname : (name = "Y" ∨ name = "X") ∧ "X" ≠ name := by
      simpa [Dict.get?] using And.intro hn hfree
    obtain rfl := hname.1.resolve_right hname.2.symm
    have htarget : Sub.Target.ofPlaceholder "Y" = .ref "Y" := by decide +kernel
    rw [htarget]

/-- The placeholder for a variable does not stand for the resource, although it has its id. -/
theorem references_complete_of_variable :
    let topic : Json := .object [("Fn::Sub", .array [.string "$\x7bY\x7d-$\x7bX\x7d",
      .object [("X", .string "text")]])]
    (Evaluator.naming topic).template.references "X" = [] ∧
      Evaluator.namedOver topic (.withBuckets {} "one")
        = Evaluator.namedOver topic (.withBuckets {} "two") := by
  intro topic
  let s : Session := (Session.openStack {} "stack" "region").2
  have hlisted : (Evaluator.naming topic).template.references "X" = [] := by decide +kernel
  have hmem : ("R", { type := "AWS::SNS::Topic", properties := [("Name", topic)] })
      ∈ (Evaluator.naming topic).template.resources := List.mem_singleton.mpr rfl
  have hunlisted : ("R", { type := "AWS::SNS::Topic", properties := [("Name", topic)] })
      ∉ (Evaluator.naming topic).template.references "X" := by
    rw [hlisted]
    exact List.not_mem_nil
  have hlookups : ∀ l, (Evaluator.naming topic).MayLookUp (.object [("Name", topic)]) l →
      ¬ l.OnOutputs [] ∧ (l.InPlaceholder → l.id ≠ "X") := by
    intro l hl
    cases (hl : (Expr.record [("Name", _)]).LooksUp _ l) with
    | field hf h =>
      rw [List.mem_singleton.mp hf] at h
      obtain rfl := h.of_variable
      refine ⟨?_, fun _ => by decide⟩
      rintro ⟨attr, hattr, -⟩
      cases hattr
  have h := ((Evaluator.naming topic).references_complete hmem (by decide)).2 hunlisted hlookups
    (.withBuckets {} "one") (.withBuckets {} "two") .none s s rfl rfl
  exact ⟨hlisted, h.1⟩

/-- A placeholder is no string of its own. So a resource that depends on another one by a
placeholder only is not among the references to it, although its properties come to another result
when another bucket is deployed. -/
theorem references_not_complete :
    let topic : Json := .object [("Fn::Sub", .string "$\x7bX\x7d")]
    let ev : Evaluator := .naming topic
    (∀ name resource, (name, resource) ∈ ev.template.resources → name = "R" ∧
      resource.properties = [("Name", topic)]) ∧
      ev.template.references "X" = [] ∧
      (∀ l, ev.MayLookUp (.object [("Name", topic)]) l → ¬ l.OnOutputs ev.nested) ∧
      (Cloud.withBuckets {} "one").without "X" = (Cloud.withBuckets {} "two").without "X" ∧
      Evaluator.namedOver topic (.withBuckets {} "one")
        ≠ Evaluator.namedOver topic (.withBuckets {} "two") := by
  intro topic ev
  have hparse : Sub.parse "$\x7bX\x7d" = [.placeholder "X"] := by decide +kernel
  have hnamed : ∀ x, Evaluator.namedOver topic (.withBuckets {} x)
      = .ok (.object [("Name", .string (x ++ ""))]) := by
    intro x
    show (Job.run _ (Job.bind (Job.bind (Job.bind
      (substitute _ [] (Sub.parse "$\x7bX\x7d")) _) _) _) _).1 = _
    rw [hparse]
    rfl
  refine ⟨?_, by decide +kernel, ?_, rfl, ?_⟩
  · intro name resource h
    cases List.mem_singleton.mp h
    exact ⟨rfl, rfl⟩
  · intro l hl
    cases (hl : (Expr.record [("Name", .sub "$\x7bX\x7d")]).LooksUp _ l) with
    | field hf h =>
      rw [List.mem_singleton.mp hf] at h
      cases h with
      | sub hn =>
        rw [hparse] at hn
        cases List.mem_singleton.mp hn
        have htarget : Sub.Target.ofPlaceholder "X" = .ref "X" := by decide +kernel
        rw [htarget]
        rintro ⟨attr, hattr, -⟩
        cases hattr
  · rw [hnamed, hnamed]
    simp

end StackExpr
