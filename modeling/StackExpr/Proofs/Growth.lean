import StackExpr.Proofs.NestedOutput
/-!
# Clouds that grow

A cloud grows when stacks are deployed, when resources are listed behind those that a stack has, and
when exports are added, on whatever page. `Cloud.Within` says so of two clouds, as far as evaluation
in a region can tell. What an expression is worth in the smaller cloud it is worth in the larger one
(`Plain.Gives.of_within`), so **an evaluation that succeeds goes on to succeed with the same value
after the cloud has grown** (`Run.evaluates_of_within`).

An attribute that has a value keeps it, but one that has none need not be without one for ever: a
resource that was not there may be listed now. So the step is taken for the values themselves and
not for the answers that say whether there is a value (`Plain.attribute?_of_within`).
-/

namespace StackExpr

namespace Cloud

/-- The one cloud lies within the other, seen from a region. Where the pages of exports begin and
end makes no difference. -/
structure Within (region : String) (cloud cloud' : Cloud) : Prop where
  /-- A stack that is there has the same resources first. -/
  inventories : ∀ stack resources, cloud.inventories.get? stack = some resources →
    ∃ resources', cloud'.inventories.get? stack = some resources' ∧ resources <+: resources'
  /-- An export with a name is on some page. -/
  exports : ∀ e ∈ cloud.exportPages.flatten, e.name ≠ none → e ∈ cloud'.exportPages.flatten
  /-- The region has the same URL suffix. -/
  urlSuffix : cloud.urlSuffix.getD (defaultUrlSuffix region)
    = cloud'.urlSuffix.getD (defaultUrlSuffix region)

/-- An export whose name no other one has is the one that is found by it. -/
theorem exportNamed?_of_mem {c : Cloud} (hd : c.DistinctExports) {e : Export} {name : String}
    (he : e ∈ c.exportPages.flatten) (hn : e.name = some name) :
    c.exportNamed? name = some e := by
  have hdistinct : Dict.Distinct (named c.exportPages.flatten) := by
    rw [Dict.Distinct, keys_named]
    exact hd
  have hmem : (name, e) ∈ named c.exportPages.flatten :=
    List.mem_filterMap.mpr ⟨e, he, by rw [hn, Option.map_some]⟩
  rw [exportNamed?, ← get?_named]
  exact Dict.get?_of_mem hdistinct hmem

/-- An export that is found in a cloud is found after it has grown. -/
theorem Within.exportNamed? {region : String} {cloud cloud' : Cloud}
    (hw : cloud.Within region cloud') (hd : cloud'.DistinctExports) (name : String) :
    Plain.Below (cloud.exportNamed? name) (cloud'.exportNamed? name) := by
  intro e he
  unfold Cloud.exportNamed? at he
  have hname : e.name = some name := by simpa using List.find?_some he
  have hmem := hw.exports e (List.mem_of_find?_eq_some he) (by simp [hname])
  exact exportNamed?_of_mem hd hmem hname

end Cloud

/-! ## Plain values -/

namespace Plain

variable {cloud cloud' : Cloud} {evaluate evaluate' : Evaluate} {st : Stack}

/-- A resource that was listed is the first of its id, whatever is listed behind it. -/
theorem deployed?_of_within {region : String} (hw : cloud.Within region cloud') {id : String}
    {resource : StackResource} (h : deployed? cloud st id = some (some resource)) :
    deployed? cloud' st id = some (some resource) := by
  obtain ⟨resources, hr, hfind⟩ := Option.bind_eq_some_iff.mp h
  obtain ⟨resources', hr', added, rfl⟩ := hw.inventories _ _ hr
  have hfind := Option.some.inj hfind
  unfold deployed?
  rw [hr']
  show some (List.find? _ _) = _
  rw [List.find?_append, hfind, Option.some_or]

section Step

variable (hw : cloud.Within st.context.region cloud')
  (h : ∀ st', st'.context.region = st.context.region →
    ∀ e, Below (evaluate st' e) (evaluate' st' e))
include hw h

theorem attribute?_of_within (id : String) (attr : Option String) :
    Below (attribute? cloud evaluate st id attr).join
      (attribute? cloud' evaluate' st id attr).join := by
  by_cases hid : ∃ output, id = "Outputs" ∧ attr = some output
  · obtain ⟨output, rfl, rfl⟩ := hid
    rw [attribute?_outputs, attribute?_outputs]
    cases st.template.outputValue? output with
    | none => exact .refl _
    | some value => exact Below.join ((h st rfl _).bind fun _ => .refl _)
  · have hne : ∀ output, id = "Outputs" → attr = some output → False :=
      fun output hid' hattr => hid ⟨output, hid', hattr⟩
    rw [attribute?_of_ne _ _ _ hne, attribute?_of_ne _ _ _ hne]
    intro v hv
    rw [Option.join_eq_some_iff] at hv ⊢
    obtain ⟨resource?, hresource, hv⟩ := Option.bind_eq_some_iff.mp hv
    cases resource? with
    | none => cases hv
    | some resource =>
      rw [deployed?_of_within hw hresource]
      exact deployedAttribute?_mono h id attr resource _ hv

theorem ref?_of_within (id : String) :
    Below (ref? cloud evaluate st id).join (ref? cloud' evaluate' st id).join := by
  unfold ref?
  split
  · rw [hw.urlSuffix]
    exact .refl _
  · split
    · exact .refl _
    · exact .refl _
    · exact attribute?_of_within hw h id none

theorem meaning_of_within (hd : cloud'.DistinctExports) :
    (meaning cloud evaluate st).Below (meaning cloud' evaluate' st) where
  ref id := ref?_of_within hw h id
  getAtt id attr := attribute?_of_within hw h id attr
  importValue name := by
    show Below (((cloud.exportNamed? name).bind (·.value)).map Json.string)
      (((cloud'.exportNamed? name).bind (·.value)).map Json.string)
    rw [Option.map_eq_bind, Option.map_eq_bind]
    exact ((hw.exportNamed? hd name).bind fun _ => .refl _).bind fun _ => .refl _

end Step

/-- By induction on the depth: all stacks that an expression leads to are in the same region. -/
theorem evaluateAt_of_within (hd : cloud'.DistinctExports) (n : Nat) : ∀ st : Stack,
    cloud.Within st.context.region cloud' →
      ∀ e, Below (evaluateAt cloud n st e) (evaluateAt cloud' n st e) := by
  induction n with
  | zero => exact fun _ _ _ => .of_none _
  | succ n ih =>
    intro st hw e
    -- All that is led to is in one region, so its URL suffix is the only one that has to agree.
    have hstep : ∀ st', st'.context.region = st.context.region →
        ∀ e, Below (evaluateAt cloud n st' e) (evaluateAt cloud' n st' e) :=
      fun st' hst' => ih st' (hst' ▸ hw)
    exact value_mono (meaning_of_within hw hstep hd) e

/-- What a value is worth it is worth after the cloud has grown. -/
theorem Gives.of_within (hd : cloud'.DistinctExports) (hw : cloud.Within st.context.region cloud')
    {v w : Json} (h : Gives cloud st v w) : Gives cloud' st v w := by
  obtain ⟨n, hn⟩ := h
  exact ⟨n, evaluateAt_of_within hd n st hw _ w hn⟩

end Plain

/-! ## Runs -/

/-- **Evaluation is monotone in the cloud.** Let an evaluation have succeeded with no request of its
own made to fail, and let the cloud lie within another one. Over that one the same value can be
evaluated in the same stack, opened on its own, and succeeds with the same result; and so it ends in
every run over it, as long as no request of the evaluation is made to fail. -/
theorem Run.evaluates_of_within {client client' : Client} {log : List Event}
    {tasks : Multiset Task} {s : Session} {ev : Evaluator} (h : Run client log tasks s)
    (hm : Made tasks ev) (hd : client.cloud.DistinctExports)
    (hd' : client'.cloud.DistinctExports)
    (hw : client.cloud.Within ev.context.region client'.cloud) {v w : Json} {own : List Event}
    (ht : ⟨.evaluate ev v, .done (.ok w), own⟩ ∈ tasks)
    (hown : ∀ e ∈ own, e.injected client = false) :
    (∀ pages, client'.cloud.EvaluatesAlone pages ev.stack v w) ∧
      ∀ log' tasks' s' ev' r own', Run client' log' tasks' s' → Made tasks' ev' →
        ev'.stack = ev.stack → ⟨.evaluate ev' v, .done r, own'⟩ ∈ tasks' →
        (∀ e ∈ own', e.injected client' = false) → r = .ok w := by
  have hgives : Plain.Gives client'.cloud ev.stack v w :=
    ((h.evaluate_iff hd hm ht hown w).mp rfl).of_within hd' hw
  refine ⟨fun pages => (Cloud.evaluatesAlone_iff hd' pages ev.stack v w).mpr hgives, ?_⟩
  intro log' tasks' s' ev' r own' h' hm' hstack ht' hown'
  rw [← hstack] at hgives
  exact (h'.evaluate_iff hd' hm' ht' hown' w).mpr hgives

/-- A bucket, an export and the URL suffix, in a cloud to which another resource, another stack and
other pages of exports are added, and that spells out its URL suffix. -/
theorem evaluates_of_within_of_bucket :
    let bucket : StackResource := ⟨"B", some "bucket", "AWS::S3::Bucket"⟩
    let v : Json := .array [.object [("Ref", .string "B")],
      .object [("Fn::ImportValue", .string "E")], .object [("Ref", .string "AWS::URLSuffix")]]
    let w : Json := .array [.string "bucket", .string "e", .string "amazonaws.com"]
    let cloud : Cloud := {
      inventories := [("stack", [bucket])]
      exportPages := [[⟨some "E", some "e"⟩]] }
    let cloud' : Cloud := {
      inventories := [("other", []), ("stack", [bucket, ⟨"B", none, "AWS::SNS::Topic"⟩])]
      exportPages := [[⟨none, some "e"⟩], [], [⟨some "F", none⟩, ⟨some "E", some "e"⟩]]
      urlSuffix := some "amazonaws.com" }
    cloud.DistinctExports ∧ cloud'.DistinctExports ∧ cloud.Within "region" cloud' ∧
      cloud.EvaluatesAlone 0 ⟨"stack", {}, .first, []⟩ v w ∧
      cloud'.EvaluatesAlone 0 ⟨"stack", {}, .first, []⟩ v w := by
  intro bucket v w cloud cloud'
  have hd : cloud.DistinctExports := by simp [Cloud.DistinctExports, cloud]
  have hd' : cloud'.DistinctExports := by simp [Cloud.DistinctExports, cloud']
  have hw : cloud.Within "region" cloud' := by
    refine ⟨fun stack resources hr => ?_, fun e he _ => ?_, rfl⟩
    · have hmem := Dict.mem_of_get? hr
      obtain ⟨rfl, rfl⟩ := Prod.mk.inj (List.mem_singleton.mp hmem)
      exact ⟨_, rfl, List.prefix_append [bucket] _⟩
    · obtain rfl := List.mem_singleton.mp he
      simp [cloud']
  obtain ⟨log, tasks, s, ev, opening, own, r, h, hstack, hopened, ht⟩ :=
    Run.exists_evaluated ⟨cloud, .none⟩ 0 ⟨"stack", {}, .first, []⟩ v
  have hm := Made.opened hopened
  have hgives : Plain.Gives cloud ev.stack v w := by
    rw [hstack]
    exact ⟨1, rfl⟩
  obtain rfl := (h.gives_of_done hd hm ht).mpr hgives
  have hregion : ev.context.region = "region" := congrArg (·.context.region) hstack
  let client' : Client := ⟨cloud', .none⟩
  have hw' : cloud.Within ev.context.region client'.cloud := by rwa [hregion]
  have hall := (h.evaluates_of_within hm hd hd' hw' ht fun e _ => not_injected e).1 0
  rw [hstack] at hall
  exact ⟨hd, hd', hw, ⟨log, tasks, s, ev, opening, own, h, hopened, ht⟩, hall⟩

end StackExpr
