import StackExpr.Proofs.Job.Offline
import StackExpr.Proofs.Plain
/-!
# Expressions that need no cloud

A name is bound in a stack if it is a pseudo parameter other than the URL suffix, a parameter of the
context, or a parameter of the template with a default. Such a name never stands for a deployed
resource, although there may be one of the same name. An expression is `Expr.Bound` if it takes
nothing from outside but what bound names stand for.

**What such an expression comes to, a value or the reason why it has none, is settled by the
expression and the stack**, whatever the cloud is like and whatever is known of it already, and it
is come to without asking (`Stack.settles_bound`).
-/

namespace StackExpr

/-! ## Names -/

namespace Stack

/-- The name is bound in the stack. -/
def Binds (st : Stack) (name : String) : Prop :=
  name ≠ urlSuffixName ∧ (name ∈ (st.context.pseudoParameters st.name).map Prod.fst ∨
    name ∈ st.context.parameters.map Prod.fst ∨ (st.template.parameterDefault? name).isSome)

instance (st : Stack) (name : String) : Decidable (st.Binds name) :=
  inferInstanceAs (Decidable (_ ∧ (_ ∨ _ ∨ _)))

/-- What the name is bound to: in the context, else by its default. -/
def binding? (st : Stack) (name : String) : Option Json :=
  ((st.context.bindings st.name).get? name).or (st.template.parameterDefault? name)

variable {st : Stack} {name : String}

theorem Binds.exists_binding? (h : st.Binds name) : ∃ v, st.binding? name = some v := by
  have hkeys : name ∈ (st.context.bindings st.name).map Prod.fst ∨
      (st.template.parameterDefault? name).isSome := by
    rw [Context.bindings, Dict.mem_keys_insertAll, or_assoc]
    exact h.2
  rw [← Dict.isSome_get?_iff] at hkeys
  exact Option.isSome_iff_exists.mp (by simpa [binding?] using hkeys)

/-- What names stand for where nothing is known but what they are bound to. -/
def names (st : Stack) : Resolver where
  ref id := Job.ofOption (.unresolvedRef id) (st.binding? id)
  getAtt id attr := Job.fail (.unresolvedAttribute id (attr.getD ""))
  importValue name := Job.fail (.exportNotFound name)

/-- An evaluator takes a bound name for what it is bound to. -/
theorem Binds.ref_eq {ev : Evaluator} (h : ev.stack.Binds name) (evaluate : Evaluate) :
    (ev.resolver evaluate).ref name = ev.stack.names.ref name := by
  obtain ⟨v, hv⟩ := h.exists_binding?
  have href : ev.ref? evaluate name = pure (ev.stack.binding? name) := by
    rw [hv, Evaluator.ref?, if_neg h.1]
    rw [binding?, Option.or_eq_some_iff] at hv
    rcases hv with hb | ⟨hb, hd⟩
    · rw [show (ev.context.bindings ev.stackName).get? name = some v from hb]
    · rw [show (ev.context.bindings ev.stackName).get? name = none from hb,
        show ev.template.parameterDefault? name = some v from hd]
  show (ev.ref? evaluate name).bind _ = _
  rw [href]
  rfl

end Stack

/-- For certain names, two resolvers come to the same. -/
def Resolver.Agrees (r r' : Resolver) (names : String → Prop) : Prop :=
  ∀ name, names name → (r.ref name).Alike (r'.ref name)

/-! ## Expressions -/

/-- A placeholder is one of the variables, or stands for a name and not for an attribute. -/
def Sub.Segment.Bound (names : String → Prop) (known : List String) : Sub.Segment → Prop
  | .literal _ => True
  | .placeholder name => name ∈ known ∨ '.' ∉ name.toList ∧ names name

namespace Expr

/-- The keys that the value of an expression is certain to have. -/
def keys : Expr → List String
  | record fields => fields.map Prod.fst
  | _ => []

mutual

/-- The expression takes nothing from outside but what certain names stand for. -/
def Bound (names : String → Prop) : Expr → Prop
  | scalar _ => True
  | list elements => BoundAll names elements
  | record fields => BoundFields names fields
  | ref id => names id
  | getAtt _ => False
  | getAttOf _ _ => False
  | join _ items => Bound names items
  | split _ text => Bound names text
  | select index items => Bound names index ∧ Bound names items
  | sub template => ∀ segment ∈ Sub.parse template, segment.Bound names []
  | subWith template bindings =>
    Bound names bindings ∧ ∀ segment ∈ Sub.parse template, segment.Bound names bindings.keys
  | importValue _ => False
  | invalid _ => True

/-- The elements take nothing from outside but what certain names stand for. -/
def BoundAll (names : String → Prop) : List Expr → Prop
  | [] => True
  | e :: es => Bound names e ∧ BoundAll names es

/-- The fields take nothing from outside but what certain names stand for. -/
def BoundFields (names : String → Prop) : List (String × Expr) → Prop
  | [] => True
  | (_, e) :: fs => Bound names e ∧ BoundFields names fs

end

theorem ofPlaceholder_name {name : String} (h : '.' ∉ name.toList) :
    Sub.Target.ofPlaceholder name = .ref name := by
  rw [Sub.Target.ofPlaceholder_eq, if_neg h]

variable {r r' : Resolver} {names : String → Prop}

/-- An object has the keys that it is written with. -/
theorem keys_of_evaluateFields : (fields : List (String × Expr)) → {vs : Dict Json} →
    (evaluateFields r fields).offline? = some (.ok vs) → vs.map Prod.fst = fields.map Prod.fst
  | [], vs, h => by
    cases h
    rfl
  | (k, e) :: fields, vs, h => by
    obtain ⟨v, -, h⟩ := Job.offline?_bind_eq_ok.mp h
    obtain ⟨rest, hrest, h⟩ := Job.offline?_bind_eq_ok.mp h
    cases h
    rw [List.map_cons, List.map_cons, keys_of_evaluateFields fields hrest]

theorem get?_of_keys {bindings : Expr} {v : Json} {vars : Dict Json}
    (h : (bindings.evaluate r).offline? = some (.ok v))
    (hvars : Function.sub.variablesOf v = .ok vars) {name : String} (hname : name ∈ bindings.keys) :
    ∃ v, vars.get? name = some v := by
  cases bindings with
  | record fields =>
    obtain ⟨vs, hvs, h⟩ := Job.offline?_bind_eq_ok.mp h
    cases h
    cases hvars
    rw [← Option.isSome_iff_exists, Dict.isSome_get?_iff, keys_of_evaluateFields fields hvs]
    exact hname
  | _ => exact absurd hname List.not_mem_nil

theorem alike_substitute (hr : r.Agrees r' names) {known : List String} {vars : Dict Json}
    (hvars : ∀ name ∈ known, ∃ v, vars.get? name = some v) : (segments : List Sub.Segment) →
    (∀ segment ∈ segments, segment.Bound names known) →
    (substitute r vars segments).Alike (substitute r' vars segments)
  | [], _ => Job.alike_pure ""
  | .literal _ :: segments, h =>
    (alike_substitute hr hvars segments (List.forall_mem_cons.mp h).2).bind fun _ _ =>
      Job.alike_pure _
  | .placeholder name :: segments, h => by
    obtain ⟨hname, h⟩ := List.forall_mem_cons.mp h
    rw [substitute_placeholder, substitute_placeholder]
    refine Job.Alike.bind ?_ fun v _ => (Job.alike_ofExcept _).bind fun text _ =>
      (alike_substitute hr hvars segments h).bind fun _ _ => Job.alike_pure _
    cases hv : vars.get? name with
    | some v => exact Job.alike_pure v
    | none =>
      rcases hname with hname | ⟨hdot, hname⟩
      · obtain ⟨v, hv'⟩ := hvars name hname
        cases hv.symm.trans hv'
      · rw [ofPlaceholder_name hdot]
        exact hr name hname

mutual

/-- **An expression comes to the same where the names that it takes from outside stand for the
same.** -/
theorem alike_evaluate (hr : r.Agrees r' names) :
    (e : Expr) → e.Bound names → (e.evaluate r).Alike (e.evaluate r')
  | scalar v, _ => Job.alike_pure v
  | list elements, h =>
    (Job.alike_all (alike_evaluateParts hr elements h)).bind fun _ _ => Job.alike_pure _
  | record fields, h => (alike_evaluateFields hr fields h).bind fun _ _ => Job.alike_pure _
  | ref id, h => hr id h
  | getAtt _, h => h.elim
  | getAttOf _ _, h => h.elim
  | join _ items, h =>
    (alike_evaluate hr items h).bind fun _ _ => (Job.alike_ofExcept _).bind fun _ _ =>
      Job.alike_ofExcept _
  | split _ text, h =>
    (alike_evaluate hr text h).bind fun _ _ => (Job.alike_ofExcept _).bind fun _ _ =>
      Job.alike_pure _
  | select index items, h =>
    (alike_evaluate hr index h.1).bind fun _ _ => (Job.alike_ofExcept _).bind fun _ _ =>
      (alike_evaluate hr items h.2).bind fun _ _ => (Job.alike_ofExcept _).bind fun _ _ =>
        Job.alike_ofExcept _
  | sub _, h =>
    (alike_substitute hr (fun _ hname => absurd hname List.not_mem_nil) _ h).bind fun _ _ =>
      Job.alike_pure _
  | subWith _ bindings, h =>
    (alike_evaluate hr bindings h.1).bind fun _ hv => (Job.alike_ofExcept _).bind fun _ hvars =>
      have hvars := Option.some.inj ((Job.offline?_ofExcept _).symm.trans hvars)
      (alike_substitute hr (fun _ => get?_of_keys hv hvars) _ h.2).bind fun _ _ =>
        Job.alike_pure _
  | importValue _, h => h.elim
  | invalid e, _ => Job.alike_fail e

theorem alike_evaluateParts (hr : r.Agrees r' names) :
    (es : List Expr) → BoundAll names es →
    List.Forall₂ Job.Alike (evaluateParts r es) (evaluateParts r' es)
  | [], _ => .nil
  | e :: es, h => .cons (alike_evaluate hr e h.1) (alike_evaluateParts hr es h.2)

theorem alike_evaluateFields (hr : r.Agrees r' names) :
    (fs : List (String × Expr)) → BoundFields names fs →
    (evaluateFields r fs).Alike (evaluateFields r' fs)
  | [], _ => Job.alike_pure []
  | (_, e) :: fs, h =>
    (alike_evaluate hr e h.1).bind fun _ _ => (alike_evaluateFields hr fs h.2).bind fun _ _ =>
      Job.alike_pure _

end

end Expr

/-! ## Evaluators -/

/-- Who takes bound names for what they are bound to comes to the same for them. -/
theorem Stack.agrees_names {st : Stack} {r : Resolver}
    (hr : ∀ name, st.Binds name → r.ref name = st.names.ref name) :
    r.Agrees st.names st.Binds := by
  intro name h
  obtain ⟨v, hv⟩ := h.exists_binding?
  have hname : st.names.ref name = pure v := by
    show Job.ofOption _ (st.binding? name) = _
    rw [hv]
    rfl
  rw [hr name h, hname]
  exact Job.alike_pure v

/-- **What an expression with bound names comes to is settled by the expression and the stack.** For
each such expression there is one result, a value or the reason why there is none, to which every
evaluator of the stack comes at once: whatever the cloud is like, whichever of its requests would
fail, and whatever the caches hold. Nothing is asked, and the session stays as it is.

In a run, where parts may go on in any order, nothing else is done either, and if there is a value,
it is this one. -/
theorem Stack.settles_bound (st : Stack) (v : Json) (hv : (Expr.ofJson v).Bound st.Binds) :
    ∃ r : Except EvalError Json, ∀ (client : Client) (ev : Evaluator), ev.stack = st →
      (∀ s, (ev.evaluate v).step client s = (.done (r.mapError .evaluation), s)) ∧
      ∀ log tasks s job own, Run client log tasks s → ⟨.evaluate ev v, job, own⟩ ∈ tasks →
        own = [] ∧ ∀ r', job = .done r' →
          ∃ ended, r' = Except.mapError .evaluation ended ∧ ended.toOption = r.toOption := by
  -- The result is the one that is come to where nothing is known but what names are bound to.
  obtain ⟨r, hnames, -⟩ := Expr.alike_evaluate (Stack.agrees_names fun _ _ => rfl) _ hv
  refine ⟨r, fun client ev hev => ?_⟩
  subst hev
  obtain ⟨r', hr, hr'⟩ := Expr.alike_evaluate
    (Stack.agrees_names fun _ hname => hname.ref_eq (Evaluator.evaluateAt ev.depth)) _ hv
  obtain rfl := Option.some.inj (hnames.symm.trans hr')
  have hop : (Operation.evaluate ev v).job.offline? = some r := hr
  exact ⟨Job.step_of_offline? client _ hr, fun log tasks s job own h ht => h.offline ht hop⟩

/-- A stack whose template has a parameter with a default. -/
def Stack.withDefault : Stack :=
  ⟨"stack", { parameters := [("P", { default := some (.string "default") })] },
    .ofRegion "account" "region", []⟩

/-- A substitution of the parameter, of a pseudo parameter, and of a variable with a dot in its
name. -/
def substituteBound : Json :=
  .object [("Fn::Sub", .array [.string "$\x7bP\x7d$\x7bAWS::Region\x7d$\x7bA.b\x7d",
    .object [("A.b", .object [("Ref", .string "AWS::AccountId")])]])]

/-- A resource deployed under the name of the parameter makes no difference, nor does a cloud whose
requests fail. -/
theorem settles_bound_of_default :
    (Expr.ofJson substituteBound).Bound Stack.withDefault.Binds ∧
    let deployed : Client :=
      ⟨{ inventories := [("stack", [⟨"P", some "deployed", "AWS::S3::Bucket"⟩])] }, .none⟩
    let failing : Client := ⟨{}, { stackResources := [1], exports := [1], urlSuffix := [1] }⟩
    ∃ r, ∀ ev : Evaluator, ev.stack = Stack.withDefault → ∀ s,
      (ev.evaluate substituteBound).step deployed s = (.done r, s) ∧
      (ev.evaluate substituteBound).step failing s = (.done r, s) := by
  have hparse : Sub.parse "$\x7bP\x7d$\x7bAWS::Region\x7d$\x7bA.b\x7d"
      = [.placeholder "P", .placeholder "AWS::Region", .placeholder "A.b"] := by decide +kernel
  have hbinds : ∀ name ∈ ["AWS::AccountId", "AWS::Region", "P"], Stack.withDefault.Binds name := by
    decide
  have hv : (Expr.ofJson substituteBound).Bound Stack.withDefault.Binds := by
    refine ⟨⟨hbinds _ (by decide), trivial⟩, ?_⟩
    rw [hparse]
    simp only [List.forall_mem_cons]
    exact ⟨Or.inr ⟨by decide, hbinds _ (by decide)⟩, Or.inr ⟨by decide, hbinds _ (by decide)⟩,
      Or.inl (List.mem_singleton_self _), fun _ h => absurd h List.not_mem_nil⟩
  obtain ⟨r, hr⟩ := Stack.withDefault.settles_bound substituteBound hv
  exact ⟨hv, _, fun ev hev s => ⟨(hr _ ev hev).1 s, (hr _ ev hev).1 s⟩⟩

end StackExpr
