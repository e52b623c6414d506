import StackExpr.Cloud.Decode
import StackExpr.Cloud.Encode
import StackExpr.Files
import StackExpr.Proofs.Doc
import StackExpr.Template.Decode
import StackExpr.Template.Encode
/-!
# Templates and clouds that are written and read again

Templates, nested stacks and clouds are read from documents that may leave out fields, give them in
any order or as a list, and have other keys besides. They are written in one form only. Nothing is
lost on the way: **what was read is read again from what is written for it**
(`Doc.InJson.read_again`), with all its entries in their order.

For three of them this takes more than reading each field again:

* A resource has its attributes beside its type and its properties. No attribute that was read has
  the key of one of these (`Resource.Sound`), and properties that are left out are empty ones.
* A parameter leaves out a default that is absent. The default of one that was read is never null,
  so it is not taken for an absent one (`Doc.ne_null_of_optionalJson?`).
* A nested stack is read by recursion on a bound on its levels. Any bound above the height of what
  is written does (`NestedStack.restored_of_ofDocWithin?`).

All this is about documents, not about the texts that they are written as. What is written as a JSON
text may be read as something else, or not at all:

* A float is scaled step by step when it is read, and each step rounds (`Number.Literal.scaled?`), so
  it may become a neighbouring one: `0.12088995980580641` is read as `0.1208899598058064`.
* A text is read only if it nests at most 127 levels (`Json.Reader.maxDepth`), and writing fields
  that were left out may add to the levels of a document.
-/

namespace StackExpr

open Doc

/-! ## Resources -/

namespace Resource

/-- The resource may have been read: its keys are distinct at every depth, and no attribute takes
the place of its type or of its properties. -/
structure Sound (r : Resource) : Prop where
  properties : (Json.object r.properties).Distinct
  attributes : (Json.object r.attributes).Distinct
  not_own : ∀ e ∈ r.attributes, e.1 ∉ ownKeys

/-- What a resource was read from: each attribute from an entry that is none of the other fields. -/
theorem exists_of_ofDoc? {d : Doc} {r : Resource} (h : ofDoc? d = some r) :
    ∃ entries, d.entries? = some entries ∧ (Json.object r.properties).Distinct ∧
      r.attributes.Distinct ∧
      ∀ e ∈ r.attributes, (∃ x, (e.1, x) ∈ entries) ∧ e.1 ∉ ownKeys ∧ e.2.Distinct := by
  obtain ⟨entries, hentries, h⟩ := Option.bind_eq_some_iff.mp h
  obtain ⟨_, -, h⟩ := Option.bind_eq_some_iff.mp h
  obtain ⟨type, -, h⟩ := Option.bind_eq_some_iff.mp h
  obtain ⟨_, -, h⟩ := Option.bind_eq_some_iff.mp h
  obtain ⟨properties, hproperties, h⟩ := Option.bind_eq_some_iff.mp h
  obtain ⟨attributes, hattributes, h⟩ := Option.bind_eq_some_iff.mp h
  obtain rfl := Option.some.inj h
  obtain ⟨hdistinct, hproperty⟩ := distinct_of_orEmpty hproperties
  refine ⟨entries, hentries, ⟨hdistinct, Json.distinctFields_iff.mpr fun e he => ?_⟩,
    Dict.distinct_ofEntries attributes, fun e he => ?_⟩
  · obtain ⟨x, hread⟩ := hproperty e he
    exact distinct_of_toJson? x hread
  · obtain ⟨⟨k, x⟩, hx, he⟩ := exists_of_mapM hattributes e (Dict.mem_of_mem_ofEntries he)
    obtain ⟨x', -, he⟩ := Option.bind_eq_some_iff.mp he
    obtain ⟨v, hv, he⟩ := Option.bind_eq_some_iff.mp he
    obtain rfl := Option.some.inj he
    obtain ⟨hmem, hkey⟩ := List.mem_filter.mp hx
    exact ⟨⟨x, hmem⟩, by simpa using hkey, distinct_of_toJson? x' hv⟩

theorem sound_of_ofDoc? {d : Doc} {r : Resource} (h : ofDoc? d = some r) : r.Sound := by
  obtain ⟨_, -, hproperties, hdistinct, hattribute⟩ := exists_of_ofDoc? h
  refine ⟨hproperties, ⟨hdistinct, Json.distinctFields_iff.mpr fun e he => ?_⟩, fun e he => ?_⟩
  · exact (hattribute e he).2.2
  · exact (hattribute e he).2.1

/-- The fields of a resource before its attributes. -/
def ownFields (r : Resource) : Dict Json :=
  ("Type", .string r.type) ::
    if r.properties.isEmpty then [] else [("Properties", .object r.properties)]

theorem fields_eq (r : Resource) : r.fields = r.ownFields ++ r.attributes := rfl

theorem keys_ownFields (r : Resource) : r.ownFields.map Prod.fst = ["Type"] ∨
    r.ownFields.map Prod.fst = ["Type", "Properties"] := by
  unfold ownFields
  split
  · exact Or.inl rfl
  · exact Or.inr rfl

theorem mem_ownKeys {r : Resource} {e : String × Json} (he : e ∈ r.ownFields) :
    e.1 ∈ ownKeys := by
  have hkey := List.mem_map_of_mem (f := Prod.fst) he
  rcases r.keys_ownFields with h | h
  · rw [h] at hkey
    exact List.mem_append_left ["Properties"] hkey
  · rwa [h] at hkey

namespace Sound

variable {r : Resource}

theorem distinct_ownFields (hr : r.Sound) : Json.DistinctFields r.ownFields := by
  refine ⟨trivial, ?_⟩
  split
  · trivial
  · exact ⟨hr.properties, trivial⟩

theorem distinct (hr : r.Sound) : (Json.object r.fields).Distinct := by
  constructor
  · rw [fields_eq, Dict.Distinct, List.map_append]
    refine List.nodup_append.mpr ⟨?_, hr.attributes.1, ?_⟩
    · rcases r.keys_ownFields with h | h <;> rw [h] <;> decide
    · -- An attribute under the key of another field would have been taken for that field.
      rintro _ hown _ hattribute rfl
      obtain ⟨e, he, rfl⟩ := List.mem_map.mp hown
      obtain ⟨e', he', hkey⟩ := List.mem_map.mp hattribute
      exact hr.not_own e' he' (hkey ▸ mem_ownKeys he)
  · rw [fields_eq, Json.distinctFields_iff, List.forall_mem_append]
    exact ⟨Json.distinctFields_iff.mp hr.distinct_ownFields,
      Json.distinctFields_iff.mp hr.attributes.2⟩

/-- The attributes are what stands beside the other fields. -/
theorem filter_fields (hr : r.Sound) :
    (r.fields.filter fun e => !ownKeys.contains e.1) = r.attributes := by
  have hown : (r.ownFields.filter fun e => !ownKeys.contains e.1) = [] :=
    List.filter_eq_nil_iff.mpr fun e he => by simpa using mem_ownKeys he
  have hattributes : (r.attributes.filter fun e => !ownKeys.contains e.1) = r.attributes :=
    List.filter_eq_self.mpr fun e he => by simpa using hr.not_own e he
  rw [fields_eq, List.filter_append, hown, hattributes, List.nil_append]

theorem get?_properties (hr : r.Sound) : Dict.get? r.fields "Properties"
    = if r.properties.isEmpty then none else some (.object r.properties) := by
  have hattributes : Dict.get? r.attributes "Properties" = none := by
    rw [← Option.not_isSome_iff_eq_none, Dict.isSome_get?_iff]
    intro hkey
    obtain ⟨e, he, hkey⟩ := List.mem_map.mp hkey
    exact hr.not_own e he (hkey ▸ by decide)
  rw [fields_eq, ownFields]
  by_cases h : r.properties.isEmpty
  · rw [if_pos h, if_pos h]
    exact hattributes
  · rw [if_neg h, if_neg h]
    rfl

/-- Properties are read again, also if they were left out because there are none. -/
theorem orDefault_properties (hr : r.Sound) : orDefault [] (Doc.dict? toJson?)
    ((Dict.get? r.fields "Properties").map ofJson) = some r.properties := by
  rw [hr.get?_properties]
  split
  · next h => rw [List.isEmpty_iff.mp h]; rfl
  · exact (restored_object? hr.properties).read_eq

/-- There is nothing to settle in an attribute that was written. -/
theorem mapM_attributes (hr : r.Sound) :
    (r.attributes.map fun f => (f.1, ofJson f.2)).mapM
      (fun e => e.2.settle?.bind fun d => d.toJson?.bind fun v => some (e.1, v))
      = some r.attributes :=
  mapM_map_eq_some fun e he => by
    rw [settle?_of_inJson _ (inJson_ofJson e.2), Option.bind_some,
      toJson?_ofJson e.2 (Json.distinctFields_iff.mp hr.attributes.2 e he)]
    rfl

theorem restored (hr : r.Sound) : Restored ofDoc? (fun r => .object r.fields) r := by
  have htype : required text? ((Dict.get? r.fields "Type").map ofJson) = some r.type := rfl
  have hothers : (r.fields.map fun f => (f.1, ofJson f.2)).filter (fun e => !ownKeys.contains e.1)
      = r.attributes.map fun f => (f.1, ofJson f.2) := by
    rw [List.filter_map, ← hr.filter_fields]
    rfl
  refine ⟨hr.distinct, ?_⟩
  unfold ofDoc?
  rw [entries?_object]
  simp only [Option.bind_eq_bind, Option.bind_some, Option.pure_def, field?_object hr.distinct.1,
    htype, hr.orDefault_properties, hothers, hr.mapM_attributes,
    Dict.ofEntries_of_distinct hr.attributes.1]

end Sound

theorem restores : Restores ofDoc? fun r => .object r.fields :=
  fun _ _ _ h => (sound_of_ofDoc? h).restored

end Resource

/-! ## Parameters and outputs -/

theorem Doc.optionalJson?_ofJson {v : Json} (hv : v ≠ .null) (hd : v.Distinct) :
    (ofJson v).optionalJson? = some (some v) := by
  have hnull : (ofJson v).isNull = false := by
    cases v <;> first | rfl | exact absurd rfl hv
  rw [optionalJson?, hnull, toJson?_ofJson v hd]
  rfl

theorem Doc.ne_null_of_optionalJson? {d : Doc} (hd : d.InJson) {v : Json}
    (h : d.optionalJson? = some (some v)) : v ≠ .null ∧ v.Distinct := by
  unfold optionalJson? at h
  split at h
  · cases h
  · next hnull =>
    obtain ⟨v', hv', h⟩ := Option.map_eq_some_iff.mp h
    obtain rfl := Option.some.inj h
    refine ⟨?_, distinct_of_toJson? d hv'⟩
    rintro rfl
    cases d with
    | null => exact hnull rfl
    | plain s => exact hd
    | tagged d => exact hd
    | list items =>
      obtain ⟨_, -, h⟩ := Option.map_eq_some_iff.mp hv'
      cases h
    | map entries =>
      obtain ⟨_, -, h⟩ := Option.map_eq_some_iff.mp hv'
      cases h
    | _ => cases hv'

namespace Parameter

theorem restored {p : Parameter} (h : ∀ v ∈ p.default, v ≠ .null ∧ v.Distinct) :
    Restored ofDoc? (fun p => .object p.fields) p := by
  obtain ⟨type, default⟩ := p
  have hd : (Json.object (fields ⟨type, default⟩)).Distinct := by
    cases default with
    | none =>
      cases type with
      | none => exact ⟨List.nodup_nil, trivial⟩
      | some s => exact ⟨List.pairwise_singleton _ _, trivial, trivial⟩
    | some v =>
      have hv := (h v rfl).2
      cases type with
      | none => exact ⟨List.pairwise_singleton _ _, hv, trivial⟩
      | some s => exact ⟨(by decide : ["Type", "Default"].Nodup), trivial, hv, trivial⟩
  refine ⟨hd, ?_⟩
  cases default with
  | none => cases type <;> rfl
  | some v =>
    have hv := optionalJson?_ofJson (h v rfl).1 (h v rfl).2
    cases type <;> exact Option.bind_eq_some_iff.mpr ⟨_, hv, rfl⟩

theorem restores : Restores ofDoc? fun p => .object p.fields := by
  intro d p hd h
  obtain ⟨fs, hfs, h⟩ := Option.bind_eq_some_iff.mp h
  have hin := inJson_of_members? hd hfs
  split at h
  · next type default =>
    obtain ⟨type', -, h⟩ := Option.bind_eq_some_iff.mp h
    obtain ⟨default', hdefault, h⟩ := Option.bind_eq_some_iff.mp h
    obtain rfl := Option.some.inj h
    refine restored fun v hv => ?_
    obtain rfl : default' = some v := hv
    cases default with
    | none => cases hdefault
    | some x => exact ne_null_of_optionalJson? (hin (some x) (by simp) x rfl) hdefault
  · cases h

end Parameter

theorem Output.restored {o : Output} (h : o.value.Distinct) :
    Restored ofDoc? (fun o => .object o.fields) o := by
  have hd : (Json.object o.fields).Distinct := ⟨List.pairwise_singleton _ _, h, trivial⟩
  exact ⟨hd, Option.bind_eq_some_iff.mpr ⟨_, toJson?_ofJson o.value h, rfl⟩⟩

theorem Output.restores : Restores ofDoc? fun o => .object o.fields := by
  intro d o hd h
  obtain ⟨fs, hfs, h⟩ := Option.bind_eq_some_iff.mp h
  split at h
  · obtain ⟨v, hv, h⟩ := Option.bind_eq_some_iff.mp h
    obtain rfl := Option.some.inj h
    obtain ⟨x, -, hv⟩ := Option.bind_eq_some_iff.mp hv
    exact restored (distinct_of_toJson? x hv)
  · cases h

/-! ## Templates -/

namespace Template

theorem restored {t : Template}
    (hr : Restored (dict? Resource.ofDoc?)
      (fun l => .object (l.mapValues fun r => .object r.fields)) t.resources)
    (hp : Restored (dict? Parameter.ofDoc?)
      (fun l => .object (l.mapValues fun p => .object p.fields)) t.parameters)
    (ho : Restored (dict? Output.ofDoc?)
      (fun l => .object (l.mapValues fun o => .object o.fields)) t.outputs) :
    Restored ofDoc? toJson t := by
  have hkeys : ["Resources", "Parameters", "Outputs"].Nodup := by decide
  have hd : t.toJson.Distinct := ⟨hkeys, hr.distinct, hp.distinct, ho.distinct, trivial⟩
  refine ⟨hd, Option.bind_eq_some_iff.mpr ⟨_, hr.read_eq, ?_⟩⟩
  refine Option.bind_eq_some_iff.mpr ⟨_, hp.read_eq, ?_⟩
  exact Option.bind_eq_some_iff.mpr ⟨_, ho.read_eq, rfl⟩

theorem restores : Restores ofDoc? toJson := by
  intro d t hd h
  obtain ⟨fs, hfs, h⟩ := Option.bind_eq_some_iff.mp h
  have hin := inJson_of_members? hd hfs
  split at h
  · next resources parameters outputs =>
    obtain ⟨rs, hrs, h⟩ := Option.bind_eq_some_iff.mp h
    obtain ⟨ps, hps, h⟩ := Option.bind_eq_some_iff.mp h
    obtain ⟨os, hos, h⟩ := Option.bind_eq_some_iff.mp h
    obtain rfl := Option.some.inj h
    exact restored
      (Resource.restores.orEmpty (hin resources (by simp)) hrs)
      (Parameter.restores.orEmpty (hin parameters (by simp)) hps)
      (Output.restores.orEmpty (hin outputs (by simp)) hos)
  · cases h

end Template

/-! ## Nested stacks -/

namespace NestedStack

/-- The nested stack that a document describes. -/
def ofDoc? (d : Doc) : Option NestedStack := ofDocWithin? (d.height + 1) d

theorem dictToJson_eq : dictToJson = fun nested => .object (nested.mapValues toJson) := by
  funext nested
  refine congrArg Json.object ?_
  induction nested with
  | nil => rfl
  | cons e nested ih => rw [fieldsOf, ih]; rfl

theorem height_lt_of_mem {fs : Dict Json} {e : String × Json} (he : e ∈ fs) :
    (ofJson e.2).height < (ofJson (.object fs)).height := by
  refine Nat.lt_succ_of_le ?_
  induction fs with
  | nil => exact absurd he List.not_mem_nil
  | cons f fs ih =>
    rcases List.mem_cons.mp he with rfl | he
    · exact Nat.le_max_left _ _
    · exact Nat.le_trans (ih he) (Nat.le_max_right _ _)

/-- Nested stacks are read again with a bound on their levels that is above what is written. -/
theorem restored_dict {nested : Dict NestedStack} (hd : nested.Distinct)
    (h : ∀ e ∈ nested, ∀ n, (ofJson e.2.toJson).height < n →
      Restored (ofDocWithin? n) toJson e.2) {n : Nat}
    (hn : (ofJson (dictToJson nested)).height ≤ n) :
    Restored (dict? (ofDocWithin? n)) dictToJson nested := by
  rw [dictToJson_eq] at hn ⊢
  refine restored_dict? hd fun e he => h e he n (Nat.lt_of_lt_of_le ?_ hn)
  exact height_lt_of_mem (List.mem_map_of_mem (f := fun e => (e.1, e.2.toJson)) he)

theorem restored {name : Option String} {t : Template} {nested : Dict NestedStack}
    (ht : Restored Template.ofDoc? Template.toJson t) {n : Nat}
    (hn : Restored (dict? (ofDocWithin? n)) dictToJson nested) :
    Restored (ofDocWithin? (n + 1)) toJson (mk name t nested) := by
  have hkeys : ["physical_name", "generated_template", "nested_stack_templates"].Nodup := by decide
  have hname := restored_optionalText? name
  have hd : (toJson (mk name t nested)).Distinct :=
    ⟨hkeys, hname.distinct, ht.distinct, hn.distinct, trivial⟩
  refine ⟨hd, Option.bind_eq_some_iff.mpr ⟨_, hname.read_eq, ?_⟩⟩
  refine Option.bind_eq_some_iff.mpr ⟨_, ht.read_eq, ?_⟩
  exact Option.bind_eq_some_iff.mpr ⟨_, hn.read_eq, rfl⟩

/-- By induction on the levels: with whatever bound a nested stack was read, it is read again with
any bound above what is written. -/
theorem restored_of_ofDocWithin? (levels : Nat) : ∀ d ns, d.InJson →
    ofDocWithin? levels d = some ns → ∀ n, (ofJson ns.toJson).height < n →
      Restored (ofDocWithin? n) toJson ns := by
  induction levels with
  | zero => exact fun _ _ _ h => nomatch h
  | succ levels ih =>
    intro d ns hd h n hn
    obtain ⟨fs, hfs, h⟩ := Option.bind_eq_some_iff.mp h
    have hin := inJson_of_members? hd hfs
    split at h
    · next nameField templateField nestedField =>
      obtain ⟨name, -, h⟩ := Option.bind_eq_some_iff.mp h
      obtain ⟨t, ht, h⟩ := Option.bind_eq_some_iff.mp h
      obtain ⟨nested, hnested, h⟩ := Option.bind_eq_some_iff.mp h
      obtain rfl := Option.some.inj h
      have hempty : Template.ofDoc? (.map []) = some {} := rfl
      obtain ⟨x, hx, ht⟩ := exists_of_orDefault hempty (hin templateField (by simp)) ht
      have htemplate := Template.restores x t hx ht
      obtain ⟨hdistinct, hstack⟩ := exists_of_orEmpty (hin nestedField (by simp)) hnested
      have hbelow :
          (ofJson (dictToJson nested)).height < (ofJson (mk name t nested).toJson).height :=
        height_lt_of_mem (e := ("nested_stack_templates", dictToJson nested))
          (List.mem_append_right [_, _] (List.mem_singleton_self _))
      -- The nested stacks are read with one level less, and so much lower is what is written.
      obtain ⟨n, rfl⟩ := Nat.exists_eq_succ_of_ne_zero (Nat.ne_zero_of_lt hn)
      refine restored htemplate (restored_dict hdistinct (fun e he => ?_) (by omega))
      obtain ⟨x, hx, hread⟩ := hstack e he
      exact ih x e.2 hx hread
    · cases h

theorem restores_dict : Restores dictOfDoc? dictToJson := by
  intro d nested hd h
  obtain ⟨hdistinct, hstack⟩ := exists_of_dict? hd h
  have heach : ∀ e ∈ nested, ∀ n, (ofJson e.2.toJson).height < n →
      Restored (ofDocWithin? n) toJson e.2 := by
    intro e he
    obtain ⟨x, hx, hread⟩ := hstack e he
    exact restored_of_ofDocWithin? _ x e.2 hx hread
  have hdict := restored_dict hdistinct heach (Nat.le_succ (ofJson (dictToJson nested)).height)
  exact ⟨hdict.distinct, hdict.read_eq⟩

end NestedStack

/-! ## Clouds -/

theorem StackResource.restored (r : StackResource) : Restored ofDoc? toJson r := by
  have hkeys : ["LogicalResourceId", "PhysicalResourceId", "ResourceType"].Nodup := by decide
  have hphysical := restored_optionalText? r.physicalId
  refine ⟨⟨hkeys, trivial, hphysical.distinct, trivial, trivial⟩, ?_⟩
  exact Option.bind_eq_some_iff.mpr ⟨_, hphysical.read_eq, rfl⟩

theorem Export.restored (e : Export) : Restored ofDoc? toJson e := by
  have hkeys : ["Name", "Value"].Nodup := by decide
  have hname := restored_optionalText? e.name
  have hvalue := restored_optionalText? e.value
  refine ⟨⟨hkeys, hname.distinct, hvalue.distinct, trivial⟩, ?_⟩
  refine Option.bind_eq_some_iff.mpr ⟨_, hname.read_eq, ?_⟩
  exact Option.bind_eq_some_iff.mpr ⟨_, hvalue.read_eq, rfl⟩

namespace Cloud

theorem restored {c : Cloud} (h : c.inventories.Distinct) : Restored ofDoc? toJson c := by
  have hkeys : fieldNames.Nodup := by decide
  have hinventories := restored_dict? h fun e _ =>
    restored_listOf? fun r (_ : r ∈ e.2) => r.restored
  have hpages := restored_listOf? fun page (_ : page ∈ c.exportPages) =>
    restored_listOf? fun e (_ : e ∈ page) => e.restored
  have hsuffix := restored_optionalText? c.urlSuffix
  refine ⟨⟨hkeys, hinventories.distinct, hpages.distinct, hsuffix.distinct, trivial⟩, ?_⟩
  refine Option.bind_eq_some_iff.mpr ⟨_, hinventories.read_eq, ?_⟩
  refine Option.bind_eq_some_iff.mpr ⟨_, hpages.read_eq, ?_⟩
  refine Option.bind_eq_some_iff.mpr ⟨_, hsuffix.read_eq, ?_⟩
  exact dif_pos c.pages_lt

theorem restores : Restores ofDoc? toJson := by
  intro d c hd h
  obtain ⟨fs, hfs, h⟩ := Option.bind_eq_some_iff.mp h
  have hin := inJson_of_members? hd hfs
  split at h
  · next inventories exportPages urlSuffix =>
    obtain ⟨is, his, h⟩ := Option.bind_eq_some_iff.mp h
    obtain ⟨pages, -, h⟩ := Option.bind_eq_some_iff.mp h
    obtain ⟨suffix, -, h⟩ := Option.bind_eq_some_iff.mp h
    split at h
    · obtain rfl := Option.some.inj h
      exact restored (exists_of_orEmpty (hin inventories (by simp)) his).1
    · cases h
  · cases h

end Cloud

/-! ## All of them -/

/-- **What was read is read again from what is written for it.** Let a document be one of a JSON
text, of whatever height: records in it may be maps in any order, or lists, with or without what may
be missing and with any other keys. If it is read as a template, as a nested stack, as nested stacks
by logical id or as a cloud, then what is written for it holds each key once and is read as the same
thing, all entries in the same order. So what is written for that is the same value once more. -/
theorem Doc.InJson.read_again {d : Doc} (hd : d.InJson) :
    (∀ t, Template.ofDoc? d = some t → Restored Template.ofDoc? Template.toJson t) ∧
    (∀ levels ns, NestedStack.ofDocWithin? levels d = some ns →
      Restored NestedStack.ofDoc? NestedStack.toJson ns) ∧
    (∀ nested, NestedStack.dictOfDoc? d = some nested →
      Restored NestedStack.dictOfDoc? NestedStack.dictToJson nested) ∧
    (∀ c, Cloud.ofDoc? d = some c → Restored Cloud.ofDoc? Cloud.toJson c) := by
  refine ⟨fun t => Template.restores d t hd, fun levels ns h => ?_,
    fun nested => NestedStack.restores_dict d nested hd, fun c => Cloud.restores d c hd⟩
  have hread := NestedStack.restored_of_ofDocWithin? levels d ns hd h _ (Nat.lt_succ_self _)
  exact ⟨hread.distinct, hread.read_eq⟩

/-- Lists in place of maps, fields in another order, missing, null and unknown ones. -/
theorem read_again_of_sparse :
    let key (text : String) : Key := ⟨text, false⟩
    let template : Doc := .list [
      .map [(key "R", .map [(key "DependsOn", .list [.string "S"]), (key "Properties", .map []),
        (key "Type", .string "T")])],
      .map [(key "P", .list [.null, .bool true]),
        (key "Q", .map [(key "Default", .null), (key "Extra", .null)])]]
    let inner : Doc := .list [.null, template]
    let nested : Doc := .map [
      (key "B", .map [(key "nested_stack_templates", .map [(key "C", inner)])]),
      (key "A", .map [])]
    let cloud : Doc := .map [(key "url_suffix", .null), (key "extra", .null),
      (key "stack_resources", .map [(key "stack", .list [
        .list [.string "R", .null, .string "T"],
        .map [(key "ResourceType", .string "T"), (key "LogicalResourceId", .string "S")]])])]
    let t : Template := {
      resources := [("R", ⟨"T", [], [("DependsOn", .array [.string "S"])]⟩)]
      parameters := [("P", ⟨none, some (.bool true)⟩), ("Q", ⟨none, none⟩)] }
    let forest : Dict NestedStack :=
      [("B", .mk none {} [("C", .mk none t [])]), ("A", .mk none {} [])]
    let c : Cloud := { inventories := [("stack", [⟨"R", none, "T"⟩, ⟨"S", none, "T"⟩])] }
    (Template.ofDoc? template = some t ∧ Restored Template.ofDoc? Template.toJson t) ∧
      (NestedStack.ofDoc? inner = some (.mk none t []) ∧
        Restored NestedStack.ofDoc? NestedStack.toJson (.mk none t [])) ∧
      (NestedStack.dictOfDoc? nested = some forest ∧
        Restored NestedStack.dictOfDoc? NestedStack.dictToJson forest) ∧
      (Cloud.ofDoc? cloud = some c ∧ Restored Cloud.ofDoc? Cloud.toJson c) := by
  intro key template inner nested cloud t forest c
  have htemplate : template.InJson := by simp [template, key, InJson, ItemsInJson, EntriesInJson]
  have hinner : inner.InJson := ⟨trivial, htemplate, trivial⟩
  have hnested : nested.InJson := by
    simpa [nested, key, InJson, ItemsInJson, EntriesInJson] using hinner
  have hcloud : cloud.InJson := by simp [cloud, key, InJson, ItemsInJson, EntriesInJson]
  exact ⟨⟨rfl, htemplate.read_again.1 t rfl⟩, ⟨rfl, hinner.read_again.2.1 1 _ rfl⟩,
    ⟨rfl, hnested.read_again.2.2.1 forest rfl⟩, ⟨rfl, hcloud.read_again.2.2.2 c rfl⟩⟩

/-! ## Files -/

/-- What was loaded from a JSON file is read again from the document that is written for it. -/
theorem Doc.Restores.of_load {α : Type} {read : Doc → Option α} {write : α → Json}
    (h : Restores read write) {s : Source} (hs : Format.ofPath? s.path = some .json) {a : α}
    (hl : load read (some s) = .ok a) : Restored read write a := by
  unfold load at hl
  simp only [hs] at hl
  split at hl
  · next x heq =>
    obtain ⟨d, hd, hread⟩ := Option.bind_eq_some_iff.mp heq
    cases hl
    exact h d a (Json.inJson_of_document? hd) hread
  · cases hl

end StackExpr
