import StackExpr.CommandLine.Run
import StackExpr.Proofs.References
import StackExpr.Proofs.RoundTrip
/-!
# What is reported for a reference

A reference is reported as one object: the id under which the resource is declared, its type, its
properties unless there are none, and its attributes, all side by side. So far as the names differ
this can be taken apart again. **A report identifies its resource just when no attribute has the
name of one of the other fields** (`Template.references_identified`).

Of these names, `Type` and `Properties` are never those of an attribute that was read. Nothing
keeps the third one free: an attribute may be called `logical_id`. In what is printed for such a
resource the key stands twice, and in a value the attribute has taken the place of the id.
-/

namespace StackExpr

open Doc

/-- The value identifies a resource that is declared under a name: each key stands once,
`logical_id` is the name, and from all the other fields the resource is read again. -/
inductive Json.Identifies (name : String) (r : Resource) : Json → Prop where
  | object {fields : Dict Json} (distinct : fields.Distinct)
    (id_eq : fields.get? "logical_id" = some (.string name))
    (rest_eq : Resource.ofDoc?
      (ofJson (.object (fields.filter fun f => f.1 != "logical_id"))) = some r) :
    Identifies name r (.object fields)

namespace Resource

/-- The names of the fields of a report that are not attributes. -/
def reportKeys : List String := "logical_id" :: ownKeys

variable {name : String} {r : Resource}

/-- What is read from the fields of an object has attributes of these fields only. -/
theorem mem_keys_of_ofDoc? {fields : Dict Json}
    (h : ofDoc? (ofJson (.object fields)) = some r) {a : String × Json} (ha : a ∈ r.attributes) :
    a.1 ∈ fields.map Prod.fst := by
  obtain ⟨entries, hentries, -, -, hattribute⟩ := exists_of_ofDoc? h
  rw [entries?_object] at hentries
  obtain rfl := Option.some.inj hentries
  obtain ⟨⟨x, hx⟩, -, -⟩ := hattribute a ha
  obtain ⟨f, hf, heq⟩ := List.mem_map.mp hx
  exact List.mem_map.mpr ⟨f, hf, (Prod.mk.inj heq).1⟩

/-- Whatever is reported, a resource with an attribute of such a name is not identified by it. -/
theorem not_reportKey_of_identifies {v : Json} (h : v.Identifies name r) :
    ∀ a ∈ r.attributes, a.1 ∉ reportKeys := by
  obtain ⟨-, -, hrest⟩ := h
  intro a ha hkey
  rcases List.mem_cons.mp hkey with hid | hown
  · obtain ⟨f, hf, heq⟩ := List.mem_map.mp (mem_keys_of_ofDoc? hrest ha)
    have hne : f.1 ≠ "logical_id" := by simpa using (List.mem_filter.mp hf).2
    exact hne (heq.trans hid)
  · exact (sound_of_ofDoc? hrest).not_own a ha hown

section Free

variable (hr : r.Sound) (hfree : ∀ a ∈ r.attributes, a.1 ∉ reportKeys)

include hfree

theorem ne_id_of_mem_fields : ∀ f ∈ r.fields, f.1 ≠ "logical_id" := by
  intro f hf hid
  rw [fields_eq, List.mem_append] at hf
  rcases hf with hown | hattribute
  · have hkey := mem_ownKeys hown
    rw [hid] at hkey
    exact absurd hkey (by decide)
  · exact hfree f hattribute (List.mem_cons.mpr (Or.inl hid))

include hr

theorem distinct_referenceFields (name : String) : Dict.Distinct (r.referenceFields name) := by
  refine List.nodup_cons.mpr ⟨?_, hr.distinct.1⟩
  intro hkey
  obtain ⟨f, hf, heq⟩ := List.mem_map.mp hkey
  exact ne_id_of_mem_fields hfree f hf heq

theorem identifies_referenceFields (name : String) :
    (Json.object (r.referenceFields name)).Identifies name r := by
  refine .object (distinct_referenceFields hr hfree name) rfl ?_
  have hrest : (r.referenceFields name).filter (fun f => f.1 != "logical_id") = r.fields := by
    rw [referenceFields, List.filter_cons_of_neg (by simp), List.filter_eq_self]
    intro f hf
    simpa using ne_id_of_mem_fields hfree f hf
  rw [hrest]
  exact hr.restored.read_eq

theorem identifies_reference (name : String) : (r.reference name).Identifies name r := by
  rw [reference, Dict.ofEntries_of_distinct (distinct_referenceFields hr hfree name)]
  exact identifies_referenceFields hr hfree name

end Free

end Resource

namespace Template

/-- Every key of the template stands once: each resource is declared once, and so are its
properties and its attributes, with everything in them. -/
structure Keyed (t : Template) : Prop where
  resources : t.resources.Distinct
  properties : ∀ e ∈ t.resources, (Json.object e.2.properties).Distinct
  attributes : ∀ e ∈ t.resources, (Json.object e.2.attributes).Distinct

variable {t : Template}

theorem Keyed.sound (ht : t.Keyed) {e : String × Resource} (he : e ∈ t.resources)
    (hfree : ∀ a ∈ e.2.attributes, a.1 ∉ Resource.reportKeys) : e.2.Sound := by
  refine ⟨ht.properties e he, ht.attributes e he, ?_⟩
  intro a ha hown
  exact hfree a ha (List.mem_cons_of_mem _ hown)

theorem keyed_of_ofDoc? {d : Doc} (h : ofDoc? d = some t) : t.Keyed := by
  obtain ⟨hdistinct, hread⟩ := resources_of_ofDoc? h
  refine ⟨hdistinct, fun e he => ?_, fun e he => ?_⟩
  · obtain ⟨x, hx⟩ := hread e he
    exact (Resource.sound_of_ofDoc? hx).properties
  · obtain ⟨x, hx⟩ := hread e he
    exact (Resource.sound_of_ofDoc? hx).attributes

/-- **A report identifies its resource just when no attribute has the name of one of the other
fields.** Let the keys of a template be distinct. A resource that is reported as a reference is the
one that the template declares under the reported id, and what is printed for it holds each key
once, has this id as its `logical_id` and gives the resource when the rest is read, unless an
attribute is called `logical_id`, `Type` or `Properties`, in which case it does not. The same goes
for the reference as a value. In a template that was read, be it from JSON or from YAML, keys are
distinct and `logical_id` is the only one of these names that an attribute can have. -/
theorem references_identified (t : Template) (ht : t.Keyed) (id : String) :
    (∀ name r, (name, r) ∈ t.references id → t.resources.get? name = some r ∧
      ((Json.object (r.referenceFields name)).Identifies name r ↔
        ∀ a ∈ r.attributes, a.1 ∉ Resource.reportKeys) ∧
      ((r.reference name).Identifies name r ↔
        ∀ a ∈ r.attributes, a.1 ∉ Resource.reportKeys)) ∧
    (∀ (i : CommandLine.Invocation) (state : State) (format : CommandLine.OutputFormat),
      i.task = .references id format → i.perform t state =
        .success (format.print (.array ((t.references id).map fun (name, r) =>
          .object (r.referenceFields name))))) ∧
    ∀ d t', ofDoc? d = some t' → t'.Keyed ∧ ∀ e ∈ t'.resources, ∀ a ∈ e.2.attributes,
      (a.1 ∉ Resource.reportKeys ↔ a.1 ≠ "logical_id") := by
  refine ⟨?_, ?_, ?_⟩
  · intro name r hmem
    have he : (name, r) ∈ t.resources := List.mem_of_mem_filter hmem
    refine ⟨Dict.get?_of_mem ht.resources he, ?_, ?_⟩
    · constructor
      · exact Resource.not_reportKey_of_identifies
      · intro hfree
        exact Resource.identifies_referenceFields (ht.sound he hfree) hfree name
    · constructor
      · exact Resource.not_reportKey_of_identifies
      · intro hfree
        exact Resource.identifies_reference (ht.sound he hfree) hfree name
  · intro i state format htask
    rw [CommandLine.Invocation.perform, htask]
  · intro d t' hread
    refine ⟨keyed_of_ofDoc? hread, ?_⟩
    intro e he a ha
    obtain ⟨x, hx⟩ := (resources_of_ofDoc? hread).2 e he
    have hown := (Resource.sound_of_ofDoc? hx).not_own a ha
    rw [Resource.reportKeys, List.mem_cons, not_or]
    exact and_iff_left hown

/-- One resource holds the id `X` in an attribute of its own. -/
theorem references_identified_of_holders :
    holders.Keyed ∧ ("A", holder) ∈ holders.references "X" ∧
    (Json.object (holder.referenceFields "A")).Identifies "A" holder ∧
    (holder.reference "A").Identifies "A" holder := by
  have hread : ofDoc? holdersDoc = some holders := rfl
  have hkeyed : holders.Keyed := keyed_of_ofDoc? hread
  have hmem : ("A", holder) ∈ holders.references "X" := by
    rw [references, List.mem_filter]
    exact ⟨List.mem_cons_self, by decide⟩
  have hfree : ∀ a ∈ holder.attributes, a.1 ∉ Resource.reportKeys := by decide
  obtain ⟨hreported, -, -⟩ := references_identified holders hkeyed "X"
  obtain ⟨-, htext, hvalue⟩ := hreported "A" holder hmem
  exact ⟨hkeyed, hmem, htext.mpr hfree, hvalue.mpr hfree⟩

/-- A resource with an attribute that is called `logical_id`: the printed fields have the key twice,
and the value says that the resource is declared under the text in the attribute. -/
theorem references_not_identified :
    let r : Resource := ⟨"T", [], [("DependsOn", .string "X"), ("logical_id", .string "S")]⟩
    let t : Template := ⟨[("X", ⟨"T", [], []⟩), ("R", r)], [], []⟩
    ofDoc? (.ofJson (.object [("Resources", .object [("X", .object [("Type", .string "T")]),
        ("R", .object [("Type", .string "T"), ("DependsOn", .string "X"),
          ("logical_id", .string "S")])])])) = some t ∧
      t.references "X" = [("R", r)] ∧ t.resources.get? "R" = some r ∧
      ¬ (Json.object (r.referenceFields "R")).Identifies "R" r ∧
      ¬ (r.reference "R").Identifies "R" r ∧
      r.reference "R" = .object
        [("logical_id", .string "S"), ("Type", .string "T"), ("DependsOn", .string "X")] := by
  intro r t
  refine ⟨rfl, rfl, rfl, ?_, ?_, rfl⟩
  · rintro ⟨hdistinct, -, -⟩
    have htwice : ¬ ((r.referenceFields "R").map Prod.fst).Nodup := by decide
    exact htwice hdistinct
  · rintro ⟨-, hid, -⟩
    have hshadowed : (Json.string "S") ≠ .string "R" := by simp
    exact hshadowed (Option.some.inj hid)

end Template

end StackExpr
