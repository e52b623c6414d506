import StackExpr.Proofs.Dependence
import StackExpr.Proofs.Doc
import StackExpr.Template.Decode
/-!
# What the references to an id are

A resource mentions an id if the id is its type, or a string that stands anywhere in its properties
or in its other attributes (`Json.Holds`). **The references to an id are the other resources that
mention it**, all of them and no others, in the order of the template and as they are declared there
(`Template.references_exact`).

A string counts as a whole and as a value only. What is a key of an object, what is only a part of a
string, and what is written as a number holds no id.
-/

namespace StackExpr

/-! ## Strings in values -/

namespace Json

/-- The text stands in a value as a string, at whatever depth. -/
inductive Holds (s : String) : Json → Prop where
  | here : Holds s (.string s)
  | element {elements : List Json} {v : Json} (hv : v ∈ elements) (h : Holds s v) :
    Holds s (.array elements)
  | field {fields : Dict Json} {f : String × Json} (hf : f ∈ fields) (h : Holds s f.2) :
    Holds s (.object fields)

variable {s : String}

theorem strings_subset_of_mem_fields {fields : Dict Json} {f : String × Json} (h : f ∈ fields) :
    f.2.strings ⊆ stringsOfFields fields := by
  induction fields with
  | nil => exact absurd h List.not_mem_nil
  | cons f' fields ih =>
    rcases List.mem_cons.mp h with rfl | h
    · exact fun s hs => List.mem_append_left _ hs
    · exact fun s hs => List.mem_append_right _ (ih h hs)

mutual

theorem holds_of_mem_strings : (v : Json) → s ∈ v.strings → v.Holds s
  | .string _, h => by
    rw [List.mem_singleton.mp h]
    exact .here
  | .array elements, h =>
    let ⟨_, hv, hs⟩ := exists_of_mem_elements elements h
    .element hv hs
  | .object fields, h =>
    let ⟨_, hf, hs⟩ := exists_of_mem_fields fields h
    .field hf hs
  | .null, h => absurd h List.not_mem_nil
  | .bool _, h => absurd h List.not_mem_nil
  | .number _, h => absurd h List.not_mem_nil

theorem exists_of_mem_elements : (vs : List Json) → s ∈ stringsOfElements vs →
    ∃ v ∈ vs, v.Holds s
  | [], h => absurd h List.not_mem_nil
  | v :: vs, h => by
    rcases List.mem_append.mp h with h | h
    · exact ⟨v, List.mem_cons_self, holds_of_mem_strings v h⟩
    · obtain ⟨v', hv', hs⟩ := exists_of_mem_elements vs h
      exact ⟨v', List.mem_cons_of_mem _ hv', hs⟩

theorem exists_of_mem_fields : (fs : Dict Json) → s ∈ stringsOfFields fs →
    ∃ f ∈ fs, f.2.Holds s
  | [], h => absurd h List.not_mem_nil
  | (k, v) :: fs, h => by
    rcases List.mem_append.mp h with h | h
    · exact ⟨(k, v), List.mem_cons_self, holds_of_mem_strings v h⟩
    · obtain ⟨f, hf, hs⟩ := exists_of_mem_fields fs h
      exact ⟨f, List.mem_cons_of_mem _ hf, hs⟩

end

/-- **The strings that are collected from a value are those that stand in it.** -/
theorem mem_strings_iff {v : Json} : s ∈ v.strings ↔ v.Holds s := by
  refine ⟨holds_of_mem_strings v, fun h => ?_⟩
  induction h with
  | here => exact List.mem_singleton_self s
  | element hv _ ih => exact strings_subset_of_mem hv ih
  | field hf _ ih => exact strings_subset_of_mem_fields hf ih

theorem mem_stringsOfFields_iff {fields : Dict Json} :
    s ∈ stringsOfFields fields ↔ ∃ f ∈ fields, f.2.Holds s :=
  ⟨exists_of_mem_fields fields,
    fun ⟨_, hf, h⟩ => strings_subset_of_mem_fields hf (mem_strings_iff.mpr h)⟩

end Json

/-! ## References -/

/-- The resource mentions an id: as its type, in one of its properties, or in another attribute. -/
inductive Resource.Mentions (r : Resource) (id : String) : Prop where
  | type (h : id = r.type)
  | property {p : String × Json} (hp : p ∈ r.properties) (h : p.2.Holds id)
  | attribute {a : String × Json} (ha : a ∈ r.attributes) (h : a.2.Holds id)

theorem Resource.mentions_iff {r : Resource} {id : String} :
    r.mentions id = true ↔ r.Mentions id := by
  rw [mentions, List.contains_iff_mem, strings, List.mem_cons, List.mem_append,
    Json.mem_stringsOfFields_iff, Json.mem_stringsOfFields_iff]
  constructor
  · rintro (h | ⟨p, hp, h⟩ | ⟨a, ha, h⟩)
    · exact .type h
    · exact .property hp h
    · exact .attribute ha h
  · rintro (h | ⟨hp, h⟩ | ⟨ha, h⟩)
    · exact Or.inl h
    · exact Or.inr (Or.inl ⟨_, hp, h⟩)
    · exact Or.inr (Or.inr ⟨_, ha, h⟩)

namespace Template

/-- A template that was read declares each resource once, and each of them was read. -/
theorem resources_of_ofDoc? {d : Doc} {t : Template} (h : ofDoc? d = some t) :
    t.resources.Distinct ∧ ∀ e ∈ t.resources, ∃ x, Resource.ofDoc? x = some e.2 := by
  obtain ⟨fs, -, h⟩ := Option.bind_eq_some_iff.mp h
  split at h
  · next resources parameters outputs =>
    obtain ⟨rs, hrs, h⟩ := Option.bind_eq_some_iff.mp h
    obtain ⟨ps, -, h⟩ := Option.bind_eq_some_iff.mp h
    obtain ⟨os, -, h⟩ := Option.bind_eq_some_iff.mp h
    obtain rfl := Option.some.inj h
    exact Doc.distinct_of_orEmpty hrs
  · cases h

/-- **The references to an id are exactly the other resources that mention it.** They stand in the
order of the template, each as it is declared there. As a template that was read declares each
resource once, none is listed twice. -/
theorem references_exact (t : Template) (id : String) :
    (t.references id).Sublist t.resources ∧
    (∀ name r, (name, r) ∈ t.references id ↔
      (name, r) ∈ t.resources ∧ name ≠ id ∧ r.Mentions id) ∧
    (t.resources.Distinct → (t.references id).Distinct) ∧
    ∀ d, ofDoc? d = some t → t.resources.Distinct := by
  have hsub : (t.references id).Sublist t.resources := List.filter_sublist
  refine ⟨hsub, fun name r => ?_, fun hd => ?_, fun d h => (resources_of_ofDoc? h).1⟩
  · rw [references, List.mem_filter, Bool.and_eq_true, bne_iff_ne, Resource.mentions_iff]
  · exact hd.sublist (hsub.map Prod.fst)

/-- A resource that holds the id `X` in a list within an object. -/
def holder : Resource :=
  ⟨"T", [], [("Metadata", .object [("of", .array [.null, .string "X"])])]⟩

/-- A resource that has `X` as a key and as a part of a string, but not as a string. -/
def keyed : Resource := ⟨"T", [("X", .string "XX")], []⟩

/-- The template of both, and of the resource `X`, which holds its own id. -/
def holders : Template :=
  ⟨[("A", holder), ("B", keyed), ("X", ⟨"T", [("Name", .string "X")], []⟩)], [], []⟩

/-- The template as a document. -/
def holdersDoc : Doc :=
  .ofJson (.object [("Resources", .object [
    ("A", .object [("Type", .string "T"),
      ("Metadata", .object [("of", .array [.null, .string "X"])])]),
    ("B", .object [("Type", .string "T"), ("Properties", .object [("X", .string "XX")])]),
    ("X", .object [("Type", .string "T"), ("Properties", .object [("Name", .string "X")])])])])

/-- The references to `X` are the one other resource that holds it as a string. -/
theorem references_exact_of_holders :
    ofDoc? holdersDoc = some holders ∧ (holders.references "X").Distinct ∧
    ("A", holder) ∈ holders.references "X" ∧ ("B", keyed) ∉ holders.references "X" ∧
    ¬ keyed.Mentions "X" ∧ (holders.references "X").length = 1 := by
  have hread : ofDoc? holdersDoc = some holders := rfl
  obtain ⟨-, hmem, hdistinct, hdeclared⟩ := references_exact holders "X"
  have hholds : (Json.object [("of", .array [.null, .string "X"])]).Holds "X" :=
    .field List.mem_cons_self (.element (List.mem_cons_of_mem _ List.mem_cons_self) .here)
  have hkeyed : ¬ keyed.Mentions "X" := by
    rw [← Resource.mentions_iff]
    decide
  refine ⟨hread, hdistinct (hdeclared holdersDoc hread), (hmem "A" holder).mpr ?_,
    fun h => hkeyed ((hmem "B" keyed).mp h).2.2, hkeyed, by decide⟩
  exact ⟨List.mem_cons_self, by decide, .attribute List.mem_cons_self hholds⟩

end Template

end StackExpr
