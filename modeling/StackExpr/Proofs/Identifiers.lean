import StackExpr.Proofs.Failures
import StackExpr.Proofs.NestedOutput
import StackExpr.Proofs.Splitting
/-!
# Identifiers that are segments of a physical id

Some attributes are a segment of the physical id of the resource, `apis/<api>/functions/<function>`.
Which one is told by its position between the slashes. So a segment is known by what stands before
it alone: so many texts without slashes (`Arn.IsSegment`). **The attribute is this segment, as it
is, and there is none if the segment is missing or empty** (`Arn.Identifier.extracted`). An
expression for it has the segment as its value, or else fails because the attribute cannot be told
(`identifiers_extracted`). An empty text, or a part of another segment, is never the value.

The id `Outputs` is an exception: in an expression, an attribute of it is an output of the stack
itself, whatever resource is declared under that id. And the resources of a stack are not known
before they have been asked for, a request that may fail (`identifiers_not_extracted`).
-/

namespace StackExpr

open Job

/-! ## Segments -/

namespace Arn

/-- The text holds no slash. -/
def SlashFree (s : String) : Prop := '/' ∉ s.toList

instance (s : String) : Decidable (SlashFree s) := inferInstanceAs (Decidable (_ ∉ _))

/-- A text is the segment of an id with a number: so many texts stand before it, and neither they
nor the segment hold a slash. What comes after it may be anything. -/
def IsSegment (index : Nat) (id segment : String) : Prop :=
  ∃ before after : List String, before.length = index ∧
    (∀ s ∈ before ++ [segment], SlashFree s) ∧
    id = "/".intercalate (before ++ segment :: after)

variable {index : Nat} {id segment : String}

theorem slashFree_iff {s : String} : SlashFree s ↔ ¬ "/".toList <:+: s.toList := by
  have hslash : "/".toList = ['/'] := rfl
  rw [hslash, List.singleton_infix_iff, SlashFree]

theorem piece?_eq (index : Nat) (id : String) :
    Text.piece? "/" index id = (pieces "/" id)[index]? := by
  rw [Text.piece?, pieces_of_ne (by decide), List.getElem?_map]

/-- A text without slashes that others follow is the first piece. -/
theorem pieces_cons {s : String} (hs : SlashFree s) {rest : List String} (hne : rest ≠ []) :
    pieces "/" ("/".intercalate (s :: rest)) = s :: pieces "/" ("/".intercalate rest) := by
  have hborderless : Text.Borderless "/".toList := Text.borderless_singleton '/'
  have hchars : rest.map String.toList ≠ [] := by simpa using hne
  rw [pieces_of_ne (by decide), pieces_of_ne (by decide), String.toList_intercalate,
    String.toList_intercalate, List.map_cons, hborderless.splitOn_intercalate_cons
      (List.cons_ne_nil _ _) (slashFree_iff.mp hs) hchars, List.map_cons, String.ofList_toList]

/-- A text without slashes at the beginning is the first piece. -/
theorem head?_pieces {s : String} (hs : SlashFree s) (rest : List String) :
    (pieces "/" ("/".intercalate (s :: rest)))[0]? = some s := by
  by_cases hne : rest = []
  · have hnone : Text.cut "/".toList s.toList = none :=
      Text.cut_eq_none_iff.mpr (slashFree_iff.mp hs)
    rw [hne, String.intercalate_singleton, pieces_of_ne (by decide), Text.splitOn_of_none hnone]
    simp
  · rw [pieces_cons hs hne]
    rfl

/-- **The piece with a number is the segment with this number.** -/
theorem piece?_eq_some_iff :
    Text.piece? "/" index id = some segment ↔ IsSegment index id segment := by
  rw [piece?_eq]
  constructor
  · intro h
    obtain ⟨hlt, hget⟩ := List.getElem?_eq_some_iff.mp h
    have hsplit : (pieces "/" id).take index ++ segment :: (pieces "/" id).drop (index + 1)
        = pieces "/" id := by
      rw [← hget, ← List.drop_eq_getElem_cons hlt, List.take_append_drop]
    refine ⟨(pieces "/" id).take index, (pieces "/" id).drop (index + 1),
      List.length_take_of_le hlt.le, ?_, ?_⟩
    · intro s hs
      have hmem : s ∈ pieces "/" id := by
        rw [← hsplit]
        rcases List.mem_append.mp hs with hs | hs
        · exact List.mem_append_left _ hs
        · rw [List.mem_singleton.mp hs]
          exact List.mem_append_right _ List.mem_cons_self
      exact slashFree_iff.mpr (not_infix_of_mem_pieces (by decide) hmem)
    · rw [hsplit, intercalate_pieces]
  · -- By induction on what stands before the segment: each of these texts is a piece.
    rintro ⟨before, after, rfl, hfree, rfl⟩
    induction before with
    | nil => exact head?_pieces (hfree segment (by simp)) after
    | cons s before ih =>
      rw [List.cons_append, List.forall_mem_cons] at hfree
      have hne : before ++ segment :: after ≠ [] := by simp
      rw [List.cons_append, pieces_cons hfree.1 hne, List.length_cons, List.getElem?_cons_succ]
      exact ih hfree.2

/-- An id has one segment with a number, if it has any. -/
theorem IsSegment.unique {segment' : String} (h : IsSegment index id segment)
    (h' : IsSegment index id segment') : segment = segment' :=
  Option.some.inj ((piece?_eq_some_iff.mpr h).symm.trans (piece?_eq_some_iff.mpr h'))

theorem segment?_eq_some_iff :
    segment? index id = some segment ↔ IsSegment index id segment ∧ segment ≠ "" := by
  rw [segment?, Option.filter_eq_some_iff, piece?_eq_some_iff, decide_eq_true_eq]

theorem segment?_eq_none_iff :
    segment? index id = none ↔ ∀ segment, IsSegment index id segment → segment = "" := by
  rw [segment?, Option.filter_eq_none_iff]
  constructor
  · intro h segment hs
    simpa using h segment (piece?_eq_some_iff.mpr hs)
  · intro h segment hs
    simpa using h segment (piece?_eq_some_iff.mp hs)

/-! ## Identifiers -/

/-- The attributes that are segments of the physical id, each with the type of the resource and the
number of the segment. -/
inductive Identifier : (type attr : String) → (index : Nat) → Prop where
  | apiId : Identifier "AWS::AppSync::GraphQLApi" "ApiId" 1
  | functionId : Identifier "AWS::AppSync::FunctionConfiguration" "FunctionId" 3
  | dataSourceName : Identifier "AWS::AppSync::DataSource" "Name" 3

namespace Identifier

variable {type attr : String}

theorem attribute?_eq (h : Identifier type attr index) (place : Place) (id : String) :
    attribute? place type id (some attr) = .ok (segment? index id) := by
  cases h <;> rfl

theorem ne_stackType (h : Identifier type attr index) : type ≠ stackType := by
  cases h <;> decide

/-- **The attribute is the segment, and there is none if the segment is missing or empty.** -/
theorem extracted (h : Identifier type attr index) (place : Place) (id : String) :
    (∀ segment, attribute? place type id (some attr) = .ok (some segment) ↔
      IsSegment index id segment ∧ segment ≠ "") ∧
    (attribute? place type id (some attr) = .ok none ↔
      ∀ segment, IsSegment index id segment → segment = "") := by
  rw [h.attribute?_eq]
  constructor
  · intro segment
    rw [Except.ok.injEq, segment?_eq_some_iff]
  · rw [Except.ok.injEq, segment?_eq_none_iff]

end Identifier

/-- The result that an expression for such an attribute has: the segment, or the error that the
attribute cannot be told if the segment is missing or empty. -/
inductive Resolves (index : Nat) (physicalId id attr : String) : Except Failure Json → Prop where
  | segment {segment : String} (hs : IsSegment index physicalId segment) (hne : segment ≠ "") :
    Resolves index physicalId id attr (.ok (.string segment))
  | unresolved (h : ∀ segment, IsSegment index physicalId segment → segment = "") :
    Resolves index physicalId id attr (.error (.evaluation (.unresolvedAttribute id attr)))

end Arn

/-! ## Expressions -/

namespace Evaluator

variable {w : World} {evaluate : Evaluate} {ev : Evaluator} {id attr physicalId : String}
  {index : Nat} {resource : StackResource}

/-- The expression for an attribute. -/
def getAtt (id attr : String) : Json := Function.getAtt.written [.string id, .string attr]

theorem evaluate_getAtt (ev : Evaluator) (id attr : String) : ev.evaluate (getAtt id attr) =
    (attribute? (evaluateAt ev.depth) ev id (some attr)).bind
      (Job.ofOption (.unresolvedAttribute id attr)) := by
  rw [Evaluator.evaluate, getAtt, Expr.ofJson_written]
  rfl

theorem deployedAttribute?_identifier (hi : Arn.Identifier resource.type attr index)
    (hp : resource.physicalId = some physicalId) :
    deployedAttribute? evaluate ev id (some attr) resource
      = pure ((Arn.segment? index physicalId).map .string) := by
  have hstack : (resource.type == stackType) = false := beq_eq_false_iff_ne.mpr hi.ne_stackType
  rw [deployedAttribute?, hstack, hp]
  show (Job.ofExcept (Arn.attribute? ev.place resource.type physicalId (some attr))).bind _ = _
  rw [hi.attribute?_eq]
  rfl

/-- A resource that every inventory lists is found, unless the inventory cannot be had. -/
theorem ensures_deployed?_listed (hlisted : ∀ resources : List StackResource,
      w.answers ev.caches .inventory resources →
      (resources.find? fun r => r.logicalId == id) = some resource) :
    (ev.deployed? id).Ensures w fun r => r = .ok (some resource) ∨
      ∃ message, w.refuses ev.caches .stackResources message ∧ r = .error (.client message) := by
  constructor
  · intro resources hr
    have hfound := hlisted resources hr
    exact Or.inl (congrArg Except.ok hfound)
  · intro message hm
    exact Or.inr ⟨message, hm, rfl⟩

/-- **An expression for an identifier has the segment as its value, or fails because the attribute
cannot be told,** unless the inventory cannot be had. -/
theorem ensures_identifier (hid : id ≠ "Outputs") (hi : Arn.Identifier resource.type attr index)
    (hp : resource.physicalId = some physicalId)
    (hlisted : ∀ resources : List StackResource, w.answers ev.caches .inventory resources →
      (resources.find? fun r => r.logicalId == id) = some resource) :
    (ev.evaluate (getAtt id attr)).Ensures w fun r => Arn.Resolves index physicalId id attr r ∨
      ∃ message, w.refuses ev.caches .stackResources message ∧ r = .error (.client message) := by
  rw [evaluate_getAtt, attribute?_of_ne fun _ h _ => hid h, bind_bind]
  refine ensures_bind ?_ ?_ (ensures_deployed?_listed hlisted)
  · rintro resource? (hfound | ⟨message, -, hfailed⟩)
    · rw [Except.ok.inj hfound, Option.elim_some, deployedAttribute?_identifier hi hp]
      cases hsegment : Arn.segment? index physicalId with
      | none => exact Or.inl (.unresolved (Arn.segment?_eq_none_iff.mp hsegment))
      | some segment =>
        obtain ⟨hs, hne⟩ := Arn.segment?_eq_some_iff.mp hsegment
        exact Or.inl (.segment hs hne)
    · cases hfailed
  · rintro e (hfound | ⟨message, hm, hfailed⟩)
    · cases hfound
    · cases hfailed
      exact Or.inr ⟨message, hm, rfl⟩

end Evaluator

/-! ## Runs -/

section Runs

variable {client : Client} {log : List Event} {tasks : Multiset Task} {s : Session} {ev : Evaluator}

/-- The request for the resources of a stack that the cloud lists fails only if it was made to
fail. -/
theorem Run.hits_of_refused (h : Run client log tasks s) (hm : Made tasks ev)
    {resources : List StackResource}
    (hlisted : client.cloud.inventories.get? ev.stackName = some resources) {r : Request} {n : Nat}
    {message : String} (hr : .refused ev.caches r n message ∈ log) :
    client.faults.hits r.kind n = true := by
  rcases h.traffic.1.refused_cases hr with hits | ⟨c, hc, -, hnone⟩
  · exact hits
  · obtain ⟨c', hc', hstack, -⟩ := (h.fit hm).opened
    obtain rfl := Option.some.inj (hc.symm.trans hc')
    rw [hstack, hlisted] at hnone
    cases hnone

theorem Run.identifier_evaluated (h : Run client log tasks s) (hm : Made tasks ev) {id : String}
    (hid : id ≠ "Outputs") {resource : StackResource}
    (hdeployed : Plain.deployed? client.cloud ev.stack id = some (some resource)) {attr : String}
    {index : Nat} (hi : Arn.Identifier resource.type attr index) {physicalId : String}
    (hp : resource.physicalId = some physicalId) {r : Except Failure Json} {own : List Event}
    (ht : ⟨.evaluate ev (Evaluator.getAtt id attr), .done r, own⟩ ∈ tasks) :
    Arn.Resolves index physicalId id attr r ∨
      ∃ request n message, .refused ev.caches request n message ∈ own ∧
        client.faults.hits request.kind n = true ∧ r = .error (.client message) := by
  obtain ⟨resources, hlisted, -⟩ := Option.bind_eq_some_iff.mp hdeployed
  have hread : ∀ resources : List StackResource,
      (s.met own).answers ev.caches .inventory resources →
      (resources.find? fun r => r.logicalId == id) = some resource := by
    intro resources hr
    exact h.find?_of_read hm hdeployed (h.mem_log ht _ hr)
  rcases h.canEnd ht _ (Evaluator.ensures_identifier hid hi hp hread) with hr | ⟨message, hm', hr⟩
  · exact Or.inl hr
  · obtain ⟨request, n, -, hrefused⟩ := hm'
    exact Or.inr ⟨request, n, message, hrefused,
      h.hits_of_refused hm hlisted (h.mem_log ht _ hrefused), hr⟩

end Runs

/-- **Identifiers are extracted exactly, or the attribute cannot be told.** The physical id of an
API has the identifier behind the first text and a slash, that of a function or of a data source
behind three, and anything may follow. In general, the attribute is the segment of the physical id
with a certain number, a text without slashes that is not empty, and there is none just when the
segment is missing or empty. An expression for the attribute of a deployed resource, under another
id than `Outputs`, can be evaluated to its end; and then it has the segment as its value, or has
failed because the attribute cannot be told, or a request of its own was made to fail. -/
theorem identifiers_extracted :
    (∀ place p a rest, Arn.SlashFree p → Arn.SlashFree a → a ≠ "" →
      Arn.attribute? place "AWS::AppSync::GraphQLApi" ("/".intercalate (p :: a :: rest))
        (some "ApiId") = .ok (some a)) ∧
    (∀ place p a k f rest, (∀ s ∈ [p, a, k, f], Arn.SlashFree s) → f ≠ "" →
      Arn.attribute? place "AWS::AppSync::FunctionConfiguration"
        ("/".intercalate (p :: a :: k :: f :: rest)) (some "FunctionId") = .ok (some f) ∧
      Arn.attribute? place "AWS::AppSync::DataSource"
        ("/".intercalate (p :: a :: k :: f :: rest)) (some "Name") = .ok (some f)) ∧
    ∀ type attr index, Arn.Identifier type attr index → ∀ physicalId,
      (∀ place,
        (∀ segment, Arn.attribute? place type physicalId (some attr) = .ok (some segment) ↔
          Arn.IsSegment index physicalId segment ∧ segment ≠ "") ∧
        (Arn.attribute? place type physicalId (some attr) = .ok none ↔
          ∀ segment, Arn.IsSegment index physicalId segment → segment = "")) ∧
      ∀ client log tasks s ev id, Run client log tasks s → Made tasks ev → id ≠ "Outputs" →
        Plain.deployed? client.cloud ev.stack id = some (some ⟨id, some physicalId, type⟩) →
        (∃ log' tasks' s' own r, Run client log' tasks' s' ∧ Made tasks' ev ∧
          ⟨.evaluate ev (Evaluator.getAtt id attr), .done r, own⟩ ∈ tasks') ∧
        ∀ r own, ⟨.evaluate ev (Evaluator.getAtt id attr), .done r, own⟩ ∈ tasks →
          Arn.Resolves index physicalId id attr r ∨
            ∃ request n message, .refused ev.caches request n message ∈ own ∧
              client.faults.hits request.kind n = true ∧ r = .error (.client message) := by
  refine ⟨?_, ?_, ?_⟩
  · intro place p a rest hp ha hne
    have hs : Arn.IsSegment 1 ("/".intercalate (p :: a :: rest)) a :=
      ⟨[p], rest, rfl, by simp [hp, ha], rfl⟩
    exact ((Arn.Identifier.apiId.extracted place _).1 a).mpr ⟨hs, hne⟩
  · intro place p a k f rest hfree hne
    have hs : Arn.IsSegment 3 ("/".intercalate (p :: a :: k :: f :: rest)) f :=
      ⟨[p, a, k], rest, rfl, hfree, rfl⟩
    constructor
    · exact ((Arn.Identifier.functionId.extracted place _).1 f).mpr ⟨hs, hne⟩
    · exact ((Arn.Identifier.dataSourceName.extracted place _).1 f).mpr ⟨hs, hne⟩
  · intro type attr index hi physicalId
    refine ⟨fun place => hi.extracted place physicalId, ?_⟩
    intro client log tasks s ev id h hm hid hdeployed
    constructor
    · obtain ⟨log', tasks', s', own, r, h', hm', -, ht⟩ :=
        h.exists_evaluation hm (Evaluator.getAtt id attr)
      exact ⟨log', tasks', s', own, r, h', hm', ht⟩
    · intro r own ht
      exact h.identifier_evaluated hm hid hdeployed hi rfl ht

/-- A cloud that lists an API under an id, with nothing behind the slash of its physical id. -/
def Cloud.listingApi (id : String) : Cloud :=
  { Cloud.listing id with
    inventories := [("stack", [⟨id, some "apis/", "AWS::AppSync::GraphQLApi"⟩])] }

/-- The attribute of an API whose physical id ends with its only slash cannot be told. -/
theorem identifiers_extracted_of_emptySegment : ∃ log tasks s ev own,
    Run ⟨.listingApi "Api", .none⟩ log tasks s ∧ Made tasks ev ∧
      ⟨.evaluate ev (Evaluator.getAtt "Api" "ApiId"),
        .done (.error (.evaluation (.unresolvedAttribute "Api" "ApiId"))), own⟩ ∈ tasks := by
  obtain ⟨-, -, hidentifier⟩ := identifiers_extracted
  obtain ⟨-, hevaluated⟩ := hidentifier _ _ _ .apiId "apis/"
  have h := Run.first ⟨.listingApi "Api", .none⟩ []
  have hm : Made (Task.first [] ::ₘ 0) (.first []) := .first (Multiset.mem_cons_self _ _)
  obtain ⟨⟨log, tasks, s, own, r, h', hm', ht⟩, -⟩ :=
    hevaluated _ _ _ _ _ "Api" h hm (by decide) rfl
  obtain ⟨-, hresult⟩ := hevaluated _ _ _ _ _ "Api" h' hm' (by decide) rfl
  have hempty : Arn.IsSegment 1 "apis/" "" := ⟨["apis"], [], rfl, by decide, by decide⟩
  rcases hresult r own ht with hr | ⟨request, n, -, -, hits, -⟩
  · cases hr with
    | segment hs hne => exact absurd (hs.unique hempty) hne
    | unresolved _ => exact ⟨log, tasks, s, _, own, h', hm', ht⟩
  · have hnone : Faults.none.hits request.kind n = false := by
      cases request.kind <;> rfl
    exact absurd (hits.symm.trans hnone) (by simp)

/-- Under the id `Outputs` the value is the output of the stack that has the name of the attribute,
here an empty text. And where the request for the resources is made to fail, this is what the
expression fails with. -/
theorem identifiers_not_extracted :
    (∃ tasks s ev, Run ⟨.listingApi "Outputs", .none⟩ [] tasks s ∧ Made tasks ev ∧
      Plain.deployed? (.listingApi "Outputs") ev.stack "Outputs"
        = some (some ⟨"Outputs", some "apis/", "AWS::AppSync::GraphQLApi"⟩) ∧
      ⟨.evaluate ev (Evaluator.getAtt "Outputs" "ApiId"), .done (.ok (.string "")), []⟩ ∈ tasks) ∧
    ∃ log tasks s ev own message,
      Run ⟨.listingApi "Api", { stackResources := [1] }⟩ log tasks s ∧ Made tasks ev ∧
      Plain.deployed? (.listingApi "Api") ev.stack "Api"
        = some (some ⟨"Api", some "apis/", "AWS::AppSync::GraphQLApi"⟩) ∧
      ⟨.evaluate ev (Evaluator.getAtt "Api" "ApiId"), .done (.error (.client message)), own⟩
        ∈ tasks := by
  constructor
  · let template : Template := { outputs := [("ApiId", ⟨.string ""⟩)] }
    let ev : Evaluator := ⟨"stack", template, .first, [], 0, Evaluator.depthFor 0 template []⟩
    let client : Client := ⟨.listingApi "Outputs", .none⟩
    let opener : Task := ⟨.openStack 0 "stack" template .first [], .done (.ok ev), []⟩
    have h₁ : Run client [] (opener ::ₘ 0) ⟨{}, [{ stack := "stack", region := "region" }]⟩ :=
      (Run.moved (.opened _ _ _) (.begun (.openStack 0 "stack" template .first []) .start) :)
    let op : Operation := .evaluate ev (Evaluator.getAtt "Outputs" "ApiId")
    let told : Task := ⟨op, .done (.ok (.string "")), []⟩
    have hdepth : ev.depth = 3 + 1 := by
      simp [ev, template, Evaluator.depthFor, Evaluator.ownSteps, Evaluator.nestedSteps,
        NestedStack.preorder]
    have hjob : op.job = .done (.ok (.string "")) := by
      show ev.evaluate (Evaluator.getAtt "Outputs" "ApiId") = _
      rw [Evaluator.evaluate_getAtt, Evaluator.attribute?_outputs, hdepth]
      rfl
    have h₂ : Run client [] (told ::ₘ opener ::ₘ 0) _ := Run.begun_as hjob h₁
    have hm : Made (told ::ₘ opener ::ₘ 0) ev :=
      .opened (Multiset.mem_cons_of_mem (Multiset.mem_cons_self opener 0))
    exact ⟨_, _, ev, h₂, hm, rfl, Multiset.mem_cons_self _ _⟩
  · let client : Client := ⟨.listingApi "Api", { stackResources := [1] }⟩
    let ev : Evaluator := .first []
    let s (lock : Lock) (made : Nat) : Session :=
      ⟨{ stackResources := made },
        [{ stack := "stack", region := "region", inventory := ⟨none, lock⟩ }]⟩
    let op : Operation := .evaluate ev (Evaluator.getAtt "Api" "ApiId")
    let asked : Event := .asked 0 (.stackResources "stack") 1
    let message : String := "request " ++ Decimal.toText 1 ++ " failed"
    let refused : Event := .refused 0 (.stackResources "stack") 1 message
    let opener : Task := .first []
    obtain ⟨next, hjob⟩ : ∃ next, op.job = .ask 0 .inventory .arriving next := ⟨_, rfl⟩
    let waiting (p : Phase) (own : List Event) : Task := ⟨op, .ask 0 .inventory p next, own⟩
    let failed : Task := ⟨op, .done (.error (.client message)), [asked, refused]⟩
    have h₁ : Run client [] (waiting .arriving [] ::ₘ opener ::ₘ 0) (s {} 0) :=
      Run.begun_as hjob (Run.first client [])
    have h₂ : Run client [asked] (waiting (.fetching 0 1 none) [asked] ::ₘ opener ::ₘ 0)
        (s (Lock.enter {}).2 1) :=
      .moved (@Job.Move.suspended client _ _ _ 0 .inventory .arriving (.fetching 0 1 none) _ rfl) h₁
    have h₃ : Run client [asked, refused] (failed ::ₘ opener ::ₘ 0)
        (s ((Lock.enter {}).2.leave 0) 1) :=
      .moved (@Job.Move.refused client _ _ _ 0 .inventory (.fetching 0 1 none) _ message rfl) h₂
    have hm : Made (failed ::ₘ opener ::ₘ 0) ev :=
      .first (Multiset.mem_cons_of_mem (Multiset.mem_cons_self opener 0))
    exact ⟨_, _, _, ev, _, message, h₃, hm, rfl, Multiset.mem_cons_self _ _⟩

end StackExpr
