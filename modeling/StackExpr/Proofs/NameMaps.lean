import StackExpr.Proofs.NestedOutput
import StackExpr.Proofs.PartialEvaluation
import StackExpr.Proofs.Script
/-!
# Maps of names

Two things are written as an object that gives expressions to names: the variables of a substitution
and the parameters of a nested stack. **Such a map is evaluated entry by entry**, whatever the names
are, as if each entry had been evaluated on its own, one after the other
(`Run.name_maps_evaluated`). A substitution then replaces each placeholder by the text of its
variable, and an evaluator for a nested stack gets the values for its parameters, with their names
and in their order.

The map must not be a call itself, which it is if it has one entry only and its name is that of a
call (`name_maps_not_evaluated`).
-/

namespace StackExpr

open Job

/-! ## Substitution of variables -/

namespace Sub

/-- A substitution with variables, as it is written. -/
def call (template : String) (bindings : Dict Json) : Json :=
  .object [("Fn::Sub", .array [.string template, .object bindings])]

/-- The text of a segment whose placeholder is a variable. -/
def Segment.filled (vars : Dict Json) : Segment → String
  | .literal text => text
  | .placeholder name => ((vars.get? name).bind Json.text?).getD ""

/-- The text of segments whose placeholders are variables. -/
def filled (vars : Dict Json) : List Segment → String
  | [] => ""
  | segment :: segments => segment.filled vars ++ filled vars segments

/-- What comes of segments whose placeholders are variables; not all values have a text. -/
def fill (vars : Dict Json) : List Segment → Except EvalError String
  | [] => .ok ""
  | .literal text :: segments => (fill vars segments).map (text ++ ·)
  | .placeholder name :: segments =>
    match substituted name ((vars.get? name).getD .null) with
    | .ok text => (fill vars segments).map (text ++ ·)
    | .error e => .error e

theorem fill_eq_filled {vars : Dict Json} (hvars : ∀ entry ∈ vars, entry.2.text?.isSome) :
    {segments : List Segment} →
    (∀ name, .placeholder name ∈ segments → name ∈ vars.map Prod.fst) →
    fill vars segments = .ok (filled vars segments)
  | [], _ => rfl
  | .literal text :: segments, h => by
    have hrest := fill_eq_filled hvars fun name hname => h name (List.mem_cons_of_mem _ hname)
    rw [fill, hrest]
    rfl
  | .placeholder name :: segments, h => by
    have hrest := fill_eq_filled hvars fun name hname => h name (List.mem_cons_of_mem _ hname)
    obtain ⟨v, hv⟩ := Option.isSome_iff_exists.mp
      (Dict.isSome_get?_iff.mpr (h name List.mem_cons_self))
    obtain ⟨text, htext⟩ := Option.isSome_iff_exists.mp (hvars _ (Dict.mem_of_get? hv))
    have htext : v.text? = some text := htext
    have hsubstituted : substituted name v = .ok text := by rw [substituted, htext]
    rw [fill, hrest, filled, Segment.filled, hv, Option.getD_some, hsubstituted, Option.bind_some,
      htext]
    rfl

end Sub

/-- Segments whose placeholders are variables need nothing else. -/
theorem substitute_eq_fill (r : Resolver) {vars : Dict Json} : {segments : List Sub.Segment} →
    (∀ name, .placeholder name ∈ segments → name ∈ vars.map Prod.fst) →
    substitute r vars segments = ofExcept (Sub.fill vars segments)
  | [], _ => rfl
  | .literal text :: segments, h => by
    have hrest := substitute_eq_fill r fun name hname => h name (List.mem_cons_of_mem _ hname)
    show (substitute r vars segments).bind _ = _
    rw [hrest, Sub.fill]
    cases Sub.fill vars segments <;> rfl
  | .placeholder name :: segments, h => by
    have hrest := substitute_eq_fill r fun name hname => h name (List.mem_cons_of_mem _ hname)
    obtain ⟨v, hv⟩ := Option.isSome_iff_exists.mp
      (Dict.isSome_get?_iff.mpr (h name List.mem_cons_self))
    rw [substitute_placeholder, hrest, Sub.fill, hv]
    show (ofExcept (substituted name v)).bind _ = _
    rw [Option.getD_some]
    cases substituted name v with
    | error e => rfl
    | ok text => cases Sub.fill vars segments <;> rfl

/-! ## Entry by entry -/

namespace Evaluator

variable {α : Type} {ev : Evaluator} {entries : Dict Json}

/-- The entries of a map are evaluated one after the other. -/
def eachEntry (ev : Evaluator) : Dict Json → (Dict Json → Script α) → Script α
  | [], k => k []
  | (name, v) :: entries, k =>
    .puts (.evaluate ev v) fun w => eachEntry ev entries fun rest => k ((name, w) :: rest)

/-- Evaluations of the entries of a map that have ended, one after the other: each has a value, or
one has failed and is the last. -/
inductive InTurn (ev : Evaluator) :
    Dict Json → Except Failure (Dict Json) → List Event → Multiset Task → Prop where
  | nil : InTurn ev [] (.ok []) [] 0
  | failed {name : String} {v : Json} {entries : Dict Json} (e : Failure) (own : List Event) :
    InTurn ev ((name, v) :: entries) (.error e) own (⟨.evaluate ev v, .done (.error e), own⟩ ::ₘ 0)
  | cons {name : String} {v : Json} {entries : Dict Json} {outcome : Except Failure (Dict Json)}
    {own' : List Event} {tasks : Multiset Task} (w : Json) (own : List Event)
    (h : InTurn ev entries outcome own' tasks) :
    InTurn ev ((name, v) :: entries) (outcome.map ((name, w) :: ·)) (own ++ own')
      (⟨.evaluate ev v, .done (.ok w), own⟩ ::ₘ tasks)

/-- The values have the names of the entries, in their order. -/
theorem InTurn.keys {values : Dict Json} {own : List Event} {tasks : Multiset Task}
    (h : ev.InTurn entries (.ok values) own tasks) :
    values.map Prod.fst = entries.map Prod.fst := by
  generalize hr : Except.ok values = outcome at h
  induction h generalizing values with
  | nil => cases hr; rfl
  | failed e own => cases hr
  | @cons name v entries outcome own' tasks w own h ih =>
    cases outcome with
    | error e => cases hr
    | ok rest =>
      cases hr
      exact congrArg (name :: ·) (ih rfl)

/-- The job for fields evaluates them one after the other. -/
theorem job_eachEntry {k : Dict Json → Script α} {f : Dict Json → Job α} (entries : Dict Json)
    (h : ∀ vs : Dict Json, vs.map Prod.fst = entries.map Prod.fst → f vs = (k vs).job) :
    (Expr.evaluateFields (ev.resolver (evaluateAt ev.depth)) (Expr.ofFields entries)).bind f
      = (ev.eachEntry entries k).job := by
  induction entries generalizing k f with
  | nil => exact h [] rfl
  | cons entry entries ih =>
    obtain ⟨name, v⟩ := entry
    show ((ev.evaluate v).bind fun w => (Expr.evaluateFields _ _).bind _).bind f
      = (ev.evaluate v).bind fun w => (ev.eachEntry entries _).job
    rw [bind_bind]
    refine congrArg _ (funext fun w => ?_)
    rw [bind_bind]
    exact ih fun vs hvs => h ((name, w) :: vs) (congrArg (name :: ·) hvs)

/-- A script that evaluates entries first has ended with the failure of one of them, or has gone on
with their values. -/
theorem inTurn_of_ends {k : Dict Json → Script α} {r : Except Failure α} {own : List Event}
    {pieces : Multiset Task} (h : (ev.eachEntry entries k).Ends r own pieces) :
    (∃ e, r = .error e ∧ ev.InTurn entries (.error e) own pieces) ∨
      ∃ vs own₁ own₂ pieces₁ pieces₂, ev.InTurn entries (.ok vs) own₁ pieces₁ ∧
        (k vs).Ends r own₂ pieces₂ ∧ own = own₁ ++ own₂ ∧ pieces = pieces₁ + pieces₂ := by
  induction entries generalizing k own pieces with
  | nil => exact Or.inr ⟨[], [], own, 0, pieces, .nil, h, rfl, (zero_add pieces).symm⟩
  | cons entry entries ih =>
    obtain ⟨name, v⟩ := entry
    cases h with
    | failed e own => exact Or.inl ⟨e, rfl, .failed e own⟩
    | @later _ _ w _ own own' tasks h =>
      rcases ih h with ⟨e, rfl, hturn⟩ | ⟨vs, own₁, own₂, pieces₁, pieces₂, hturn, hk, rfl, rfl⟩
      · exact Or.inl ⟨e, rfl, .cons w own hturn⟩
      · exact Or.inr ⟨(name, w) :: vs, own ++ own₁, own₂, _ ::ₘ pieces₁, pieces₂, .cons w own hturn,
          hk, (List.append_assoc _ _ _).symm, (Multiset.cons_add _ _ _).symm⟩

/-! ## The jobs of both -/

/-- A substitution evaluates the entries of its map, and then needs nothing else. -/
theorem evaluate_call (ev : Evaluator) {template : String}
    (hcall : Function.isCall (entries.map Prod.fst) = false)
    (hnames : ∀ name, .placeholder name ∈ Sub.parse template → name ∈ entries.map Prod.fst) :
    ev.evaluate (Sub.call template entries) = (ev.eachEntry entries fun vs =>
      .ends (((Sub.fill vs (Sub.parse template)).map .string).mapError .evaluation)).job := by
  have hexpr : Expr.ofJson (Sub.call template entries)
      = .subWith template (.record (Expr.ofFields entries)) := by
    rw [← Expr.ofJson_object hcall]
    rfl
  let r : Resolver := ev.resolver (evaluateAt ev.depth)
  show (Expr.ofJson (Sub.call template entries)).evaluate r = _
  rw [hexpr]
  show ((Expr.evaluateFields r (Expr.ofFields entries)).bind _).bind _ = _
  rw [bind_bind]
  refine job_eachEntry entries fun vs hvs => ?_
  show (substitute r vs (Sub.parse template)).bind _ = _
  rw [substitute_eq_fill r fun name hname => hvs ▸ hnames name hname]
  cases Sub.fill vs (Sub.parse template) <;> rfl

/-- An evaluator for a nested stack with declared parameters needs the values of the entries, and
then opens the stack. -/
theorem child?_of_parameters {id name : String} {template : Template} {inner : Dict NestedStack}
    (hcall : Function.isCall (entries.map Prod.fst) = false)
    (hf : NestedStack.find? id ev.nested = some (.mk (some name) template inner))
    (hp : ev.template.property? id "Parameters" = some (.object entries)) :
    ev.child? id = (ev.eachEntry entries fun vs =>
      .puts (.openStack 0 name template (ev.context.withParameters vs) inner) fun opened =>
        .ends (.ok (some { opened with depth := ev.depth }))).job := by
  let r : Resolver := ev.resolver (evaluateAt ev.depth)
  have hexpr : evaluateAt (ev.depth + 1) ev (Expr.ofJson (.object entries))
      = (Expr.evaluateFields r (Expr.ofFields entries)).bind fun vs => pure (.object vs) := by
    rw [Expr.ofJson_object hcall]
    rfl
  unfold child? nestedEvaluator? nestedParameters
  rw [hf, hp]
  show ((evaluateAt (ev.depth + 1) ev (Expr.ofJson (.object entries))).bind _).bind _ = _
  rw [hexpr, bind_bind, bind_bind]
  exact job_eachEntry entries fun vs hvs => rfl

/-- The opening of a stack gives an evaluator for it. -/
theorem ensures_opened {w : World} {pages : Nat} {name : String} {template : Template}
    {context : Context} {nested : Dict NestedStack} :
    (openStack pages name template context nested).Ensures w fun r => ∃ caches,
      r = .ok ⟨name, template, context, nested, caches, depthFor pages template nested⟩ :=
  fun caches _ => ⟨caches, rfl⟩

end Evaluator

/-! ## Runs -/

/-- The evaluator of an operation was made by others. -/
theorem Made.of_cons {t : Task} {others : Multiset Task} {ev : Evaluator}
    (h : Made (t ::ₘ others) ev) (ht : (∃ v, t.op = .evaluate ev v) ∨ ∃ id, t.op = .child ev id) :
    Made others ev := by
  -- If the operation itself has made an evaluator, then its own evaluator was made before.
  have hmade : ∀ ev', Made (t ::ₘ others) ev' → Made others ev' ∨ Made others ev := by
    intro ev' h
    induction h with
    | opened h =>
      rcases Multiset.mem_cons.mp h with rfl | h
      · rcases ht with ⟨v, hop⟩ | ⟨id, hop⟩ <;> cases hop
      · exact Or.inl (.opened h)
    | nested hm h ih =>
      rcases ih with ih | ih
      · rcases Multiset.mem_cons.mp h with rfl | h
        · rcases ht with ⟨v, hop⟩ | ⟨id, hop⟩
          · cases hop
          · cases hop
            exact Or.inr ih
        · exact Or.inl (.nested ih h)
      · exact Or.inr ih
  exact (hmade ev h).elim id id

/-- Over a cloud whose requests do not fail, an evaluator of a run evaluates each entry so. -/
def Cloud.EvaluatesEach (cloud : Cloud) (ev : Evaluator) (entries values : Dict Json) : Prop :=
  List.Forall₂ (fun entry value => entry.1 = value.1 ∧ cloud.Evaluates ev entry.2 value.2)
    entries values

section Runs

variable {client : Client} {cloud : Cloud} {log own : List Event} {tasks others : Multiset Task}
  {s : Session} {ev : Evaluator} {entries values : Dict Json}

/-- Entries that are worth certain values, evaluated one after the other, have these values. -/
theorem Evaluator.InTurn.eq_ok {outcome : Except Failure (Dict Json)} {pieces : Multiset Task}
    (hturn : ev.InTurn entries outcome own pieces) (h : Run ⟨cloud, .none⟩ log (pieces + others) s)
    (hd : cloud.DistinctExports) (hm : Made (pieces + others) ev)
    (hv : cloud.EvaluatesEach ev entries values) : outcome = .ok values := by
  induction hturn generalizing values others with
  | nil =>
    cases hv
    rfl
  | failed e own =>
    cases hv with
    | cons hv _ =>
      rw [Multiset.cons_add] at h hm
      have hvalue := (h.gives_of_done hd hm (Multiset.mem_cons_self _ _)).mpr (hv.2.gives hd)
      cases hvalue
  | @cons name v entries outcome own' tasks w own hturn ih =>
    cases hv with
    | @cons _ value _ values hv hvs =>
      obtain ⟨hname, hv⟩ := hv
      rw [Multiset.cons_add] at h hm
      have hw := (h.gives_of_done hd hm (Multiset.mem_cons_self _ _)).mpr (hv.gives hd)
      rw [← Multiset.add_cons] at h hm
      rw [ih h hm hvs, Except.ok.inj hw]
      obtain ⟨name', value⟩ := value
      cases hname
      rfl

/-- **A substitution evaluates the entries of its map one after the other.** -/
theorem Run.substitution_in_turn {template : String} {r : Except Failure Json}
    (h : Run client log (⟨.evaluate ev (Sub.call template entries), .done r, own⟩ ::ₘ others) s)
    (hcall : Function.isCall (entries.map Prod.fst) = false)
    (hnames : ∀ name, .placeholder name ∈ Sub.parse template → name ∈ entries.map Prod.fst) :
    ∃ outcome pieces, ev.InTurn entries outcome own pieces ∧ Run client log (pieces + others) s ∧
      (∀ e, outcome = .error e → r = .error e) ∧
      ∀ values, outcome = .ok values → (∀ entry ∈ values, entry.2.text?.isSome) →
        r = .ok (.string (Sub.filled values (Sub.parse template))) := by
  obtain ⟨pieces, hends, hrun⟩ := h.replaced (ev.evaluate_call hcall hnames)
  rcases Evaluator.inTurn_of_ends hends with
    ⟨e, rfl, hturn⟩ | ⟨vs, own₁, own₂, pieces₁, pieces₂, hturn, hk, rfl, rfl⟩
  · refine ⟨.error e, pieces, hturn, hrun, fun e' he => ?_, fun values hvalues => nomatch hvalues⟩
    rw [Except.error.inj he]
  · cases hk
    rw [List.append_nil]
    rw [add_zero] at hrun
    refine ⟨.ok vs, pieces₁, hturn, hrun, fun e he => (nomatch he), fun values hvalues htexts => ?_⟩
    obtain rfl := Except.ok.inj hvalues
    have hkeys := hturn.keys
    rw [Sub.fill_eq_filled htexts fun name hname => hkeys ▸ hnames name hname]
    rfl

/-- **An evaluator for a nested stack evaluates the entries of its parameters one after the other,
and opens the stack with their values.** -/
theorem Run.parameters_in_turn {id name : String} {template : Template} {inner : Dict NestedStack}
    {r : Except Failure (Option Evaluator)}
    (h : Run client log (⟨.child ev id, .done r, own⟩ ::ₘ others) s)
    (hcall : Function.isCall (entries.map Prod.fst) = false)
    (hf : NestedStack.find? id ev.nested = some (.mk (some name) template inner))
    (hp : ev.template.property? id "Parameters" = some (.object entries)) :
    ∃ outcome pieces opening own₁ own₂, ev.InTurn entries outcome own₁ pieces ∧
      own = own₁ ++ own₂ ∧ Run client log (pieces + (opening + others)) s ∧
      (∀ e, outcome = .error e → r = .error e ∧ opening = 0) ∧
      ∀ values, outcome = .ok values → ∃ child : Evaluator, r = .ok (some child) ∧
        child.BuiltFrom ev (.mk (some name) template inner) ∧ child.context.parameters = values ∧
        opening = ⟨.openStack 0 name template child.context inner,
          .done (.ok { child with depth := Evaluator.depthFor 0 template inner }), own₂⟩ ::ₘ 0 := by
  obtain ⟨pieces, hends, hrun⟩ := h.replaced (Evaluator.child?_of_parameters hcall hf hp)
  rcases Evaluator.inTurn_of_ends hends with
    ⟨e, rfl, hturn⟩ | ⟨vs, own₁, own₂, pieces₁, pieces₂, hturn, hk, rfl, rfl⟩
  · refine ⟨.error e, pieces, 0, own, [], hturn, (List.append_nil own).symm, by rwa [zero_add],
      fun e' he => ⟨?_, rfl⟩, fun values hvalues => nomatch hvalues⟩
    rw [Except.error.inj he]
  · rw [add_assoc] at hrun
    refine ⟨.ok vs, pieces₁, pieces₂, own₁, own₂, hturn, rfl, hrun, fun e he => (nomatch he),
      fun values hvalues => ?_⟩
    obtain rfl := Except.ok.inj hvalues
    have hmem : ∀ t ∈ pieces₂, t ∈ pieces₁ + (pieces₂ + others) := fun t ht =>
      Multiset.mem_add.mpr (Or.inr (Multiset.mem_add.mpr (Or.inl ht)))
    cases hk with
    | failed e own₂ =>
      have ht := hmem _ (Multiset.mem_cons_self _ _)
      obtain ⟨caches, hr⟩ := hrun.canEnd ht _ Evaluator.ensures_opened
      cases hr
    | @later _ _ opened _ own₂ own' tasks hk =>
      have ht := hmem _ (Multiset.mem_cons_self _ _)
      cases hk
      obtain ⟨caches, hr⟩ := hrun.canEnd ht _ Evaluator.ensures_opened
      obtain rfl := Except.ok.inj hr
      rw [List.append_nil]
      exact ⟨_, rfl, ⟨rfl, rfl, rfl⟩, rfl, rfl⟩

/-- A substitution in variables that are worth certain texts has ended with these in place. -/
theorem Run.substitution_of_each {template : String} {r : Except Failure Json}
    (h : Run ⟨cloud, .none⟩ log tasks s) (hd : cloud.DistinctExports) (hm : Made tasks ev)
    (hv : cloud.EvaluatesEach ev entries values)
    (hcall : Function.isCall (entries.map Prod.fst) = false)
    (hnames : ∀ name, .placeholder name ∈ Sub.parse template → name ∈ entries.map Prod.fst)
    (htexts : ∀ entry ∈ values, entry.2.text?.isSome)
    (ht : ⟨.evaluate ev (Sub.call template entries), .done r, own⟩ ∈ tasks) :
    r = .ok (.string (Sub.filled values (Sub.parse template))) := by
  obtain ⟨others, rfl⟩ := Multiset.exists_cons_of_mem ht
  obtain ⟨outcome, pieces, hturn, hrun, -, hvalues⟩ := h.substitution_in_turn hcall hnames
  have hm' := (hm.of_cons (Or.inl ⟨_, rfl⟩)).mono fun t ht =>
    (Multiset.mem_add.mpr (Or.inr ht) : t ∈ pieces + others)
  exact hvalues values (hturn.eq_ok hrun hd hm' hv) htexts

/-- An evaluator for a nested stack with parameters that are worth certain values is made, and has
these. -/
theorem Run.parameters_of_each {id name : String} {template : Template} {inner : Dict NestedStack}
    {r : Except Failure (Option Evaluator)} (h : Run ⟨cloud, .none⟩ log tasks s)
    (hd : cloud.DistinctExports) (hm : Made tasks ev) (hv : cloud.EvaluatesEach ev entries values)
    (hcall : Function.isCall (entries.map Prod.fst) = false)
    (hf : NestedStack.find? id ev.nested = some (.mk (some name) template inner))
    (hp : ev.template.property? id "Parameters" = some (.object entries))
    (ht : ⟨.child ev id, .done r, own⟩ ∈ tasks) :
    ∃ child : Evaluator, r = .ok (some child) ∧
      child.BuiltFrom ev (.mk (some name) template inner) ∧ child.context.parameters = values := by
  obtain ⟨others, rfl⟩ := Multiset.exists_cons_of_mem ht
  obtain ⟨outcome, pieces, opening, own₁, own₂, hturn, -, hrun, -, hvalues⟩ :=
    h.parameters_in_turn hcall hf hp
  have hm' := (hm.of_cons (Or.inr ⟨_, rfl⟩)).mono fun t ht =>
    (by simp [ht] : t ∈ pieces + (opening + others))
  obtain ⟨child, hr, hbuilt, hparameters, -⟩ :=
    hvalues values (hturn.eq_ok hrun hd hm' hv)
  exact ⟨child, hr, hbuilt, hparameters⟩

/-- **Maps of names are evaluated entry by entry**, if they are not calls themselves.

Whatever happens in a run, a substitution that has ended could as well have been the evaluations of
its variables, one after the other. If one of them failed, this is what the substitution has failed
with; if all have values that can be written as text, then it has ended with these in place of the
placeholders. In the same way, the making of an evaluator for a nested stack could have been the
evaluations of its parameters, and then the opening of the stack with their values.

So where the entries are worth certain values over a cloud whose requests do not fail, these are the
texts and the parameters, and nothing else can come of it. -/
theorem Run.name_maps_evaluated {client : Client} (h : Run client log tasks s) (hm : Made tasks ev)
    (hcall : Function.isCall (entries.map Prod.fst) = false) :
    (∀ template, (∀ name, .placeholder name ∈ Sub.parse template → name ∈ entries.map Prod.fst) →
      (∀ r own others,
        tasks = ⟨.evaluate ev (Sub.call template entries), .done r, own⟩ ::ₘ others →
        ∃ outcome pieces, ev.InTurn entries outcome own pieces ∧
          Run client log (pieces + others) s ∧ (∀ e, outcome = .error e → r = .error e) ∧
          ∀ values, outcome = .ok values → (∀ entry ∈ values, entry.2.text?.isSome) →
            r = .ok (.string (Sub.filled values (Sub.parse template)))) ∧
      ∀ cloud values, client = ⟨cloud, .none⟩ → cloud.DistinctExports →
        cloud.EvaluatesEach ev entries values → (∀ entry ∈ values, entry.2.text?.isSome) →
        cloud.Evaluates ev (Sub.call template entries)
          (.string (Sub.filled values (Sub.parse template))) ∧
        ∀ r own, ⟨.evaluate ev (Sub.call template entries), .done r, own⟩ ∈ tasks →
          r = .ok (.string (Sub.filled values (Sub.parse template)))) ∧
    ∀ id name template inner,
      NestedStack.find? id ev.nested = some (.mk (some name) template inner) →
      ev.template.property? id "Parameters" = some (.object entries) →
      (∀ r own others, tasks = ⟨.child ev id, .done r, own⟩ ::ₘ others →
        ∃ outcome pieces opening own₁ own₂, ev.InTurn entries outcome own₁ pieces ∧
          own = own₁ ++ own₂ ∧ Run client log (pieces + (opening + others)) s ∧
          (∀ e, outcome = .error e → r = .error e ∧ opening = 0) ∧
          ∀ values, outcome = .ok values → ∃ child : Evaluator, r = .ok (some child) ∧
            child.BuiltFrom ev (.mk (some name) template inner) ∧
            child.context.parameters = values ∧
            opening = ⟨.openStack 0 name template child.context inner, .done (.ok
              { child with depth := Evaluator.depthFor 0 template inner }), own₂⟩ ::ₘ 0) ∧
      ∀ cloud values, client = ⟨cloud, .none⟩ → cloud.DistinctExports →
        cloud.EvaluatesEach ev entries values →
        (∃ log' tasks' s' own child, Run ⟨cloud, .none⟩ log' tasks' s' ∧ Made tasks' ev ∧
          ⟨.child ev id, .done (.ok (some child)), own⟩ ∈ tasks' ∧
          child.BuiltFrom ev (.mk (some name) template inner) ∧
          child.context.parameters = values) ∧
        ∀ r own, ⟨.child ev id, .done r, own⟩ ∈ tasks →
          ∃ child : Evaluator, r = .ok (some child) ∧
            child.BuiltFrom ev (.mk (some name) template inner) ∧
            child.context.parameters = values := by
  refine ⟨fun template hnames =>
      ⟨fun r own others ht => ?_, fun cloud values hc hd hv htexts => ?_⟩,
    fun id name template inner hf hp =>
      ⟨fun r own others ht => ?_, fun cloud values hc hd hv => ?_⟩⟩
  · subst ht
    exact h.substitution_in_turn hcall hnames
  · subst hc
    refine ⟨?_, fun r own ht => h.substitution_of_each hd hm hv hcall hnames htexts ht⟩
    obtain ⟨log', tasks', s', own, r, h', hm', -, ht⟩ :=
      h.exists_evaluation hm (Sub.call template entries)
    obtain rfl := h'.substitution_of_each hd hm' hv hcall hnames htexts ht
    exact ⟨log', tasks', s', own, h', hm', ht⟩
  · subst ht
    exact h.parameters_in_turn hcall hf hp
  · subst hc
    refine ⟨?_, fun r own ht => h.parameters_of_each hd hm hv hcall hf hp ht⟩
    have hop : (Operation.child ev id).caches? = some ev.caches := rfl
    obtain ⟨log', tasks', s', own, r, h', hm', -, ht⟩ := h.exists_answer hm hop
    obtain ⟨child, rfl, hbuilt, hparameters⟩ := h'.parameters_of_each hd hm' hv hcall hf hp ht
    exact ⟨log', tasks', s', own, child, h', hm', ht, hbuilt, hparameters⟩

end Runs

/-! ## A stack nested in the first one, with parameters -/

/-- The evaluator of the first stack, with a stack nested in it and these parameters for it. -/
def Evaluator.declaring (entries : Dict Json) : Evaluator :=
  let resource : Resource := { type := stackType, properties := [("Parameters", .object entries)] }
  let template : Template := { resources := [("X", resource)] }
  let nested : Dict NestedStack := [("X", .mk (some "own") {} [])]
  ⟨"stack", template, .first, nested, 0, depthFor 0 template nested⟩

theorem Evaluator.find?_declaring (entries : Dict Json) :
    NestedStack.find? "X" (Evaluator.declaring entries).nested = some (.mk (some "own") {} []) := by
  simp [declaring, NestedStack.find?]

/-- The opening of this stack. -/
def Task.declaring (entries : Dict Json) : Task :=
  let ev := Evaluator.declaring entries
  ⟨.openStack 0 ev.stackName ev.template ev.context ev.nested, .done (.ok ev), []⟩

/-- A session may begin with the opening of this stack. -/
theorem Run.declaring (client : Client) (entries : Dict Json) :
    Run client [] (Task.declaring entries ::ₘ 0)
      ⟨{}, [{ stack := "stack", region := "region" }]⟩ :=
  (Run.moved (.opened _ _ _) (.begun (Task.declaring entries).op .start) :)

/-- Two entries with names of calls, one of which refers to the region. -/
def Dict.regional : Dict Json :=
  [("Ref", .object [("Ref", .string "AWS::Region")]), ("Fn::Sub", .string "text")]

/-- A map may have names of calls, if there are several. -/
theorem name_maps_evaluated_of_regional : ∃ log tasks s own child,
    Run ⟨{}, .none⟩ log tasks s ∧
      ({} : Cloud).Evaluates (.declaring .regional)
        (Sub.call "$\x7bRef\x7d-$\x7bFn::Sub\x7d" .regional) (.string "region-text") ∧
      ⟨.child (.declaring .regional) "X", .done (.ok (some child)), own⟩ ∈ tasks ∧
      child.context.parameters = [("Ref", .string "region"), ("Fn::Sub", .string "text")] := by
  let values : Dict Json := [("Ref", .string "region"), ("Fn::Sub", .string "text")]
  have h := Run.declaring ⟨{}, .none⟩ .regional
  have hm : Made (Task.declaring .regional ::ₘ 0) (.declaring .regional) :=
    .opened (Multiset.mem_cons_self _ _)
  have hd : ({} : Cloud).DistinctExports := .nil
  have hv : ({} : Cloud).EvaluatesEach (.declaring .regional) .regional values :=
    .cons ⟨rfl, (Cloud.evaluates_iff h hd hm).mpr ⟨1, rfl⟩⟩
      (.cons ⟨rfl, (Cloud.evaluates_iff h hd hm).mpr ⟨1, rfl⟩⟩ .nil)
  have hparse : Sub.parse "$\x7bRef\x7d-$\x7bFn::Sub\x7d"
      = [.placeholder "Ref", .literal "-", .placeholder "Fn::Sub"] := by decide +kernel
  have htext : "region" ++ ("-" ++ ("text" ++ "")) = "region-text" := by decide +kernel
  have hcall : Function.isCall (Dict.regional.map Prod.fst) = false := by decide
  obtain ⟨hsub, hchild⟩ := h.name_maps_evaluated hm hcall
  obtain ⟨hevaluates, -⟩ := (hsub "$\x7bRef\x7d-$\x7bFn::Sub\x7d"
    (by simp [hparse, Dict.regional])).2 {} values rfl hd hv (by simp [values, Json.text?])
  obtain ⟨⟨log, tasks, s, own, child, h', -, ht, -, hparameters⟩, -⟩ :=
    (hchild "X" "own" {} [] (Evaluator.find?_declaring _) rfl).2 {} values rfl hd hv
  rw [hparse] at hevaluates
  exact ⟨log, tasks, s, own, child, h', htext ▸ hevaluates, ht, hparameters⟩

/-- A map with one entry may be a call itself. Then its entries are not looked at, although each of
them has a value: the substitution and the evaluator for the nested stack fail. -/
theorem name_maps_not_evaluated :
    let entries : Dict Json := [("Ref", .string "AWS::Region")]
    ({} : Cloud).DistinctExports ∧
      ({} : Cloud).EvaluatesEach (.declaring entries) entries entries ∧
      (∀ entry ∈ entries, entry.2.text?.isSome) ∧
      (∀ name, .placeholder name ∈ Sub.parse "$\x7bRef\x7d" → name ∈ entries.map Prod.fst) ∧
      (Evaluator.declaring entries).template.property? "X" "Parameters" = some (.object entries) ∧
      NestedStack.find? "X" (Evaluator.declaring entries).nested
        = some (.mk (some "own") {} []) ∧
      ∃ tasks s e e', Run ⟨{}, .none⟩ [] tasks s ∧ Made tasks (.declaring entries) ∧
        ⟨.evaluate (.declaring entries) (Sub.call "$\x7bRef\x7d" entries), .done (.error e), []⟩
          ∈ tasks ∧
        ⟨.child (.declaring entries) "X", .done (.error e'), []⟩ ∈ tasks := by
  intro entries
  let ev : Evaluator := .declaring entries
  have h := Run.declaring ⟨{}, .none⟩ entries
  have hm : Made (Task.declaring entries ::ₘ 0) ev := .opened (Multiset.mem_cons_self _ _)
  have hd : ({} : Cloud).DistinctExports := .nil
  have hparse : Sub.parse "$\x7bRef\x7d" = [.placeholder "Ref"] := by decide +kernel
  refine ⟨hd, .cons ⟨rfl, (Cloud.evaluates_iff h hd hm).mpr ⟨1, rfl⟩⟩ .nil,
    by simp [entries, Json.text?], by simp [hparse, entries], rfl, Evaluator.find?_declaring _, ?_⟩
  obtain ⟨e, hsub⟩ : ∃ e, (Operation.evaluate ev (Sub.call "$\x7bRef\x7d" entries)).job
      = .done (.error e) := ⟨_, rfl⟩
  obtain ⟨e', hchild⟩ : ∃ e, (Operation.child ev "X").job = .done (.error e) := by
    show ∃ e, ev.child? "X" = _
    unfold Evaluator.child? Evaluator.nestedEvaluator?
    rw [Evaluator.find?_declaring]
    exact ⟨_, rfl⟩
  refine ⟨_, _, e, e', .begun_as hchild (.begun_as hsub h), hm.mono ?_, ?_,
    Multiset.mem_cons_self _ _⟩
  · exact fun t ht => Multiset.mem_cons_of_mem (Multiset.mem_cons_of_mem ht)
  · exact Multiset.mem_cons_of_mem (Multiset.mem_cons_self _ _)

end StackExpr
