import Mathlib.Data.List.Basic
import StackExpr.Json.Reader
/-!
# Documents that are written and read again

A document is read as something of a type, and what was read is written as a value, which is a
document again. `Doc.Restores read write` says that **what is read from a document of a JSON text is
read again from what is written for it** (`Doc.Restored`). Writing what was read once more is then
writing the same thing.

The rules below follow the way in which readers and writers are put together: values, lists,
dictionaries and fields with a default. They rest on what readers take care of: a dictionary that
was read holds each key once (`Doc.exists_of_dict?`), and so does a value
(`Doc.distinct_of_toJson?`).

The documents of JSON texts (`Doc.InJson`) have no unquoted scalars and no tags. What such a scalar
is taken for depends on who reads it, so it need not be read again as what it was written for.
-/

namespace StackExpr

section List

variable {α β : Type} {f : α → Option β}

theorem exists_of_mapM {l : List α} {l' : List β} (h : l.mapM f = some l') :
    ∀ b ∈ l', ∃ a ∈ l, f a = some b := by
  induction l generalizing l' with
  | nil =>
    rw [List.mapM_nil] at h
    obtain rfl := Option.some.inj h
    exact fun b hb => absurd hb List.not_mem_nil
  | cons a l ih =>
    rw [List.mapM_cons] at h
    obtain ⟨b, hb, h⟩ := Option.bind_eq_some_iff.mp h
    obtain ⟨bs, hbs, h⟩ := Option.bind_eq_some_iff.mp h
    obtain rfl := Option.some.inj h
    refine List.forall_mem_cons.mpr ⟨⟨a, List.mem_cons_self, hb⟩, fun b' hb' => ?_⟩
    obtain ⟨a', ha', hf⟩ := ih hbs b' hb'
    exact ⟨a', List.mem_cons_of_mem _ ha', hf⟩

theorem mapM_map_eq_some {g : β → α} {l : List β} (h : ∀ b ∈ l, f (g b) = some b) :
    (l.map g).mapM f = some l := by
  induction l with
  | nil => rfl
  | cons b l ih =>
    obtain ⟨hb, hl⟩ := List.forall_mem_cons.mp h
    rw [List.map_cons, List.mapM_cons, hb, ih hl]
    rfl

end List

theorem Dict.mem_of_mem_ofEntries {α : Type} {entries : List (String × α)} {e : String × α}
    (h : e ∈ Dict.ofEntries entries) : e ∈ entries := by
  have hget := Dict.get?_of_mem (Dict.distinct_ofEntries entries) h
  rcases Dict.get?_or_mem_of_insertAll hget with hnone | hmem
  · cases hnone
  · exact hmem

/-- Where every key appears once, the entries of a key are the one that it finds. -/
theorem Dict.filter_key {α : Type} {d : Dict α} (h : d.Distinct) (name : String) :
    (d.filter fun e => e.1 == name) = ((d.get? name).map fun v => (name, v)).toList := by
  induction d with
  | nil => rfl
  | cons e d ih =>
    obtain ⟨k, v⟩ := e
    obtain ⟨hk, hd⟩ := List.nodup_cons.mp h
    rw [get?, List.filter_cons, ih hd]
    by_cases hname : k = name
    · subst hname
      have hnone : get? d k = none := by
        rw [← Option.not_isSome_iff_eq_none, isSome_get?_iff]
        exact hk
      simp [hnone]
    · simp [hname]

/-! ## Values with distinct keys -/

namespace Json

theorem distinctElements_iff {vs : List Json} : DistinctElements vs ↔ ∀ v ∈ vs, v.Distinct := by
  induction vs with
  | nil => simp [DistinctElements]
  | cons v vs ih => simp [DistinctElements, ih]

theorem distinctFields_iff {fs : List (String × Json)} :
    DistinctFields fs ↔ ∀ f ∈ fs, f.2.Distinct := by
  induction fs with
  | nil => simp [DistinctFields]
  | cons f fs ih => simp [DistinctFields, ih]

theorem distinct_ofText? (text : Option String) : (ofText? text).Distinct := by
  cases text <;> exact trivial

end Json

namespace Doc

/-! ## Documents of JSON texts -/

mutual

/-- The document can be that of a JSON text: it has neither unquoted scalars nor tags. -/
def InJson : Doc → Prop
  | .plain _ => False
  | .tagged _ => False
  | .list items => ItemsInJson items
  | .map entries => EntriesInJson entries
  | _ => True

/-- The items can be those of a JSON text. -/
def ItemsInJson : List Doc → Prop
  | [] => True
  | d :: ds => d.InJson ∧ ItemsInJson ds

/-- The entries can be those of a JSON text. -/
def EntriesInJson : List (Key × Doc) → Prop
  | [] => True
  | (k, d) :: es => (k.plain = false ∧ d.InJson) ∧ EntriesInJson es

end

theorem itemsInJson_iff {ds : List Doc} : ItemsInJson ds ↔ ∀ d ∈ ds, d.InJson := by
  induction ds with
  | nil => simp [ItemsInJson]
  | cons d ds ih => simp [ItemsInJson, ih]

theorem entriesInJson_iff {es : List (Key × Doc)} :
    EntriesInJson es ↔ ∀ e ∈ es, e.1.plain = false ∧ e.2.InJson := by
  induction es with
  | nil => simp [EntriesInJson]
  | cons e es ih => simp [EntriesInJson, ih]

mutual

/-- A value is a document of a JSON text. -/
theorem inJson_ofJson : (v : Json) → (ofJson v).InJson
  | .null => trivial
  | .bool _ => trivial
  | .number _ => trivial
  | .string _ => trivial
  | .array es => inJson_ofElements es
  | .object fs => inJson_ofFields fs

theorem inJson_ofElements : (es : List Json) → ItemsInJson (ofElements es)
  | [] => trivial
  | e :: es => ⟨inJson_ofJson e, inJson_ofElements es⟩

theorem inJson_ofFields : (fs : List (String × Json)) → EntriesInJson (ofFields fs)
  | [] => trivial
  | (_, v) :: fs => ⟨⟨rfl, inJson_ofJson v⟩, inJson_ofFields fs⟩

end

mutual

/-- There is nothing to settle in a document of a JSON text. -/
theorem settle?_of_inJson : (d : Doc) → d.InJson → d.settle? = some d
  | .null, _ => rfl
  | .bool _, _ => rfl
  | .number _, _ => rfl
  | .string _, _ => rfl
  | .list items, h => by
    rw [settle?, settleItems?_of_inJson items h]
    rfl
  | .map entries, h => by
    rw [settle?, settleEntries?_of_inJson entries h]
    rfl

theorem settleItems?_of_inJson : (ds : List Doc) → ItemsInJson ds → settleItems? ds = some ds
  | [], _ => rfl
  | d :: ds, h => by
    rw [settleItems?, settle?_of_inJson d h.1, settleItems?_of_inJson ds h.2]
    rfl

theorem settleEntries?_of_inJson : (es : List (Key × Doc)) → EntriesInJson es →
    settleEntries? es = some es
  | [], _ => rfl
  | (⟨text, isPlain⟩, d) :: es, h => by
    obtain rfl : isPlain = false := h.1.1
    rw [settleEntries?, settle?_of_inJson d h.1.2, settleEntries?_of_inJson es h.2]
    rfl

end

mutual

/-- A value that was read holds each key once. -/
theorem distinct_of_toJson? : (d : Doc) → {v : Json} → d.toJson? = some v → v.Distinct
  | .null, v, h => by
    obtain rfl := Option.some.inj h
    trivial
  | .bool _, v, h => by
    obtain rfl := Option.some.inj h
    trivial
  | .number _, v, h => by
    obtain rfl := Option.some.inj h
    trivial
  | .string _, v, h => by
    obtain rfl := Option.some.inj h
    trivial
  | .plain s, v, h => by
    have h : ofResolved (Yaml.resolve s) = some v := h
    cases hr : Yaml.resolve s <;> rw [hr] at h
    case outOfRange => cases h
    all_goals
      obtain rfl := Option.some.inj h
      trivial
  | .list items, v, h => by
    obtain ⟨vs, hvs, rfl⟩ := Option.map_eq_some_iff.mp h
    exact Json.distinctElements_iff.mpr (distinct_of_itemsToJson? items hvs)
  | .map entries, v, h => by
    obtain ⟨fs, hfs, rfl⟩ := Option.map_eq_some_iff.mp h
    refine ⟨Dict.distinct_ofEntries fs, Json.distinctFields_iff.mpr fun f hf => ?_⟩
    exact distinct_of_entriesToJson? entries hfs f (Dict.mem_of_mem_ofEntries hf)

theorem distinct_of_itemsToJson? : (ds : List Doc) → {vs : List Json} →
    itemsToJson? ds = some vs → ∀ v ∈ vs, v.Distinct
  | [], vs, h => by
    obtain rfl := Option.some.inj h
    exact fun v hv => absurd hv List.not_mem_nil
  | d :: ds, vs, h => by
    obtain ⟨v, hv, h⟩ := Option.bind_eq_some_iff.mp h
    obtain ⟨rest, hrest, h⟩ := Option.bind_eq_some_iff.mp h
    obtain rfl := Option.some.inj h
    exact List.forall_mem_cons.mpr ⟨distinct_of_toJson? d hv, distinct_of_itemsToJson? ds hrest⟩

theorem distinct_of_entriesToJson? : (es : List (Key × Doc)) → {fs : List (String × Json)} →
    entriesToJson? es = some fs → ∀ f ∈ fs, f.2.Distinct
  | [], fs, h => by
    obtain rfl := Option.some.inj h
    exact fun f hf => absurd hf List.not_mem_nil
  | (k, d) :: es, fs, h => by
    obtain ⟨v, hv, h⟩ := Option.bind_eq_some_iff.mp h
    obtain ⟨rest, hrest, h⟩ := Option.bind_eq_some_iff.mp h
    obtain rfl := Option.some.inj h
    exact List.forall_mem_cons.mpr
      ⟨distinct_of_toJson? d hv, distinct_of_entriesToJson? es hrest⟩

end

mutual

/-- A value that holds each key once is the value of itself as a document. -/
theorem toJson?_ofJson : (v : Json) → v.Distinct → (ofJson v).toJson? = some v
  | .null, _ => rfl
  | .bool _, _ => rfl
  | .number _, _ => rfl
  | .string _, _ => rfl
  | .array es, h => by
    rw [ofJson, toJson?, itemsToJson?_ofElements es h]
    rfl
  | .object fs, h => by
    rw [ofJson, toJson?, entriesToJson?_ofFields fs h.2, Option.map_some,
      Dict.ofEntries_of_distinct h.1]

theorem itemsToJson?_ofElements : (es : List Json) → Json.DistinctElements es →
    itemsToJson? (ofElements es) = some es
  | [], _ => rfl
  | e :: es, h => by
    rw [ofElements, itemsToJson?, toJson?_ofJson e h.1, itemsToJson?_ofElements es h.2]
    rfl

theorem entriesToJson?_ofFields : (fs : List (String × Json)) → Json.DistinctFields fs →
    entriesToJson? (ofFields fs) = some fs
  | [], _ => rfl
  | (k, v) :: fs, h => by
    rw [ofFields, entriesToJson?, toJson?_ofJson v h.1, entriesToJson?_ofFields fs h.2]
    rfl

end

/-! ## Readings of one node -/

theorem inJson_of_items? {d : Doc} (hd : d.InJson) {items : List Doc} (h : d.items? = some items) :
    ∀ x ∈ items, x.InJson := by
  cases d with
  | list items' =>
    obtain rfl := Option.some.inj h
    exact itemsInJson_iff.mp hd
  | plain s => exact hd.elim
  | tagged d => exact hd.elim
  | _ => cases h

theorem inJson_of_entries? {d : Doc} (hd : d.InJson) {entries : List (String × Doc)}
    (h : d.entries? = some entries) : ∀ e ∈ entries, e.2.InJson := by
  cases d with
  | map entries' =>
    obtain rfl := Option.some.inj h
    intro e he
    obtain ⟨e', he', rfl⟩ := List.mem_map.mp he
    exact (entriesInJson_iff.mp hd e' he').2
  | plain s => exact hd.elim
  | tagged d => exact hd.elim
  | _ => cases h

theorem items?_array (vs : List Json) : (ofJson (.array vs)).items? = some (vs.map ofJson) := by
  show some (ofElements vs) = _
  induction vs with
  | nil => rfl
  | cons v vs ih => rw [ofElements, List.map_cons, Option.some.inj ih]

theorem entries?_object (fs : Dict Json) :
    (ofJson (.object fs)).entries? = some (fs.map fun f => (f.1, ofJson f.2)) := by
  show some ((ofFields fs).map _) = _
  induction fs with
  | nil => rfl
  | cons f fs ih => rw [ofFields, List.map_cons, List.map_cons, Option.some.inj ih]

/-! ## Fields -/

theorem inJson_of_field? {name : String} {entries : List (String × Doc)}
    (he : ∀ e ∈ entries, e.2.InJson) {f : Option Doc} (h : field? name entries = some f) :
    ∀ d ∈ f, d.InJson := by
  unfold field? at h
  split at h
  · cases h
    exact fun d hd => nomatch hd
  · next name' d heq =>
    cases h
    rintro d ⟨⟩
    have hmem : (name', d) ∈ entries.filter fun e => e.1 == name := by
      rw [heq]
      exact List.mem_singleton_self _
    exact he _ (List.mem_of_mem_filter hmem)
  · cases h

theorem inJson_of_members? {names : List String} {d : Doc} (hd : d.InJson)
    {fs : List (Option Doc)} (h : d.members? names = some fs) : ∀ f ∈ fs, ∀ x ∈ f, x.InJson := by
  unfold members? at h
  split at h
  · next items hitems =>
    split at h
    · obtain rfl := Option.some.inj h
      intro f hf x hx
      rcases List.mem_append.mp hf with hf | hf
      · obtain ⟨y, hy, rfl⟩ := List.mem_map.mp hf
        cases hx
        exact inJson_of_items? hd hitems x hy
      · rw [(List.mem_replicate.mp hf).2] at hx
        cases hx
    · cases h
  · obtain ⟨entries, hentries, h⟩ := Option.bind_eq_some_iff.mp h
    intro f hf
    obtain ⟨name, -, hfield⟩ := exists_of_mapM h f hf
    exact inJson_of_field? (inJson_of_entries? hd hentries) hfield

/-- In an object that holds each key once, a field is found by its key. -/
theorem field?_object {fs : Dict Json} (hd : fs.Distinct) (name : String) :
    field? name (fs.map fun f => (f.1, ofJson f.2)) = some ((fs.get? name).map ofJson) := by
  have hfilter : (fs.map fun f => (f.1, ofJson f.2)).filter (fun e => e.1 == name)
      = (((fs.get? name).map fun v => (name, v)).toList).map fun f => (f.1, ofJson f.2) := by
    rw [List.filter_map, ← Dict.filter_key hd]
    rfl
  unfold field?
  rw [hfilter]
  cases fs.get? name <;> rfl

/-! ## What is read again -/

variable {α : Type}

/-- What is written for something holds each key once, and is read as that thing. -/
structure Restored (read : Doc → Option α) (write : α → Json) (a : α) : Prop where
  distinct : (write a).Distinct
  read_eq : read (ofJson (write a)) = some a

/-- What is read from a document of a JSON text is read again from what is written for it. -/
def Restores (read : Doc → Option α) (write : α → Json) : Prop :=
  ∀ d a, d.InJson → read d = some a → Restored read write a

theorem restored_optionalText? (text : Option String) : Restored optionalText? .ofText? text := by
  refine ⟨Json.distinct_ofText? text, ?_⟩
  cases text <;> rfl

theorem restored_toJson? {v : Json} (h : v.Distinct) : Restored toJson? (fun v => v) v :=
  ⟨h, toJson?_ofJson v h⟩

section Lists

variable {read : Doc → Option α} {write : α → Json}

theorem restored_listOf? {l : List α} (h : ∀ a ∈ l, Restored read write a) :
    Restored (listOf? read) (fun l => .array (l.map write)) l := by
  constructor
  · refine Json.distinctElements_iff.mpr fun v hv => ?_
    obtain ⟨a, ha, rfl⟩ := List.mem_map.mp hv
    exact (h a ha).distinct
  · unfold listOf?
    rw [items?_array, List.map_map]
    exact mapM_map_eq_some fun a ha => (h a ha).read_eq

theorem restored_dict? {l : Dict α} (hl : l.Distinct) (h : ∀ e ∈ l, Restored read write e.2) :
    Restored (dict? read) (fun l => .object (l.mapValues write)) l := by
  have hkeys : (l.mapValues write).map Prod.fst = l.map Prod.fst := by
    rw [Dict.mapValues, List.map_map]
    rfl
  constructor
  · refine ⟨by rwa [Dict.Distinct, hkeys], Json.distinctFields_iff.mpr fun f hf => ?_⟩
    obtain ⟨e, he, rfl⟩ := List.mem_map.mp hf
    exact (h e he).distinct
  · have hvalues : (l.map fun e => (e.1, ofJson (write e.2))).mapM
        (fun e => (read e.2).map fun x => (e.1, x)) = some l :=
      mapM_map_eq_some fun e he => by rw [(h e he).read_eq]; rfl
    unfold dict?
    rw [entries?_object, Dict.mapValues, List.map_map]
    exact (congrArg (Option.bind · fun values => some (Dict.ofEntries values)) hvalues).trans
      (congrArg some (Dict.ofEntries_of_distinct hl))

/-- An object of values. -/
theorem restored_object? {fs : Dict Json} (h : (Json.object fs).Distinct) :
    Restored (dict? toJson?) .object fs := by
  have hread := (restored_dict? h.1 fun e he =>
    restored_toJson? (Json.distinctFields_iff.mp h.2 e he)).read_eq
  exact ⟨h, by simpa only [Dict.mapValues, id_eq, List.map_id'] using hread⟩

/-- A dictionary that was read holds each key once. -/
theorem distinct_of_dict? {d : Doc} {l : Dict α} (h : dict? read d = some l) : l.Distinct := by
  obtain ⟨entries, -, h⟩ := Option.bind_eq_some_iff.mp h
  obtain ⟨values, -, h⟩ := Option.bind_eq_some_iff.mp h
  obtain rfl := Option.some.inj h
  exact Dict.distinct_ofEntries values

/-- The values of a dictionary that was read were read themselves. -/
theorem exists_of_mem_dict? {d : Doc} {l : Dict α} (h : dict? read d = some l) {e : String × α}
    (he : e ∈ l) : ∃ entries, d.entries? = some entries ∧
      ∃ x, (e.1, x) ∈ entries ∧ read x = some e.2 := by
  obtain ⟨entries, hentries, h⟩ := Option.bind_eq_some_iff.mp h
  obtain ⟨values, hvalues, h⟩ := Option.bind_eq_some_iff.mp h
  obtain rfl := Option.some.inj h
  obtain ⟨⟨k, x⟩, hx, he⟩ := exists_of_mapM hvalues e (Dict.mem_of_mem_ofEntries he)
  obtain ⟨a, ha, rfl⟩ := Option.map_eq_some_iff.mp he
  exact ⟨entries, hentries, x, hx, ha⟩

/-- As `distinct_of_dict?` and `exists_of_mem_dict?`, for a dictionary that may be left out. -/
theorem distinct_of_orEmpty {f : Option Doc} {l : Dict α}
    (h : orDefault [] (dict? read) f = some l) :
    l.Distinct ∧ ∀ e ∈ l, ∃ x, read x = some e.2 := by
  cases f with
  | none =>
    obtain rfl := Option.some.inj h
    exact ⟨List.nodup_nil, fun e he => absurd he List.not_mem_nil⟩
  | some d =>
    refine ⟨distinct_of_dict? h, fun e he => ?_⟩
    obtain ⟨-, -, x, -, hx⟩ := exists_of_mem_dict? h he
    exact ⟨x, hx⟩

/-- A dictionary that was read holds each key once, and its values were read. -/
theorem exists_of_dict? {d : Doc} {l : Dict α} (hd : d.InJson) (h : dict? read d = some l) :
    l.Distinct ∧ ∀ e ∈ l, ∃ x : Doc, x.InJson ∧ read x = some e.2 := by
  refine ⟨distinct_of_dict? h, fun e he => ?_⟩
  obtain ⟨entries, hentries, x, hx, hread⟩ := exists_of_mem_dict? h he
  exact ⟨x, inJson_of_entries? hd hentries _ hx, hread⟩

/-- A field whose default is what an empty map gives was read from some document. -/
theorem exists_of_orDefault {default : α} (hdefault : read (.map []) = some default)
    {f : Option Doc} (hf : ∀ d ∈ f, d.InJson) {a : α} (h : orDefault default read f = some a) :
    ∃ d : Doc, d.InJson ∧ read d = some a := by
  cases f with
  | none => exact ⟨.map [], trivial, hdefault.trans h⟩
  | some d => exact ⟨d, hf d rfl, h⟩

/-- As `exists_of_dict?`, for a dictionary that may be left out. -/
theorem exists_of_orEmpty {f : Option Doc} (hf : ∀ d ∈ f, d.InJson) {l : Dict α}
    (h : orDefault [] (dict? read) f = some l) :
    l.Distinct ∧ ∀ e ∈ l, ∃ x : Doc, x.InJson ∧ read x = some e.2 := by
  have hempty : dict? read (.map []) = some [] := rfl
  obtain ⟨d, hd, h⟩ := exists_of_orDefault hempty hf h
  exact exists_of_dict? hd h

/-- A dictionary that may be left out. -/
theorem Restores.orEmpty (h : Restores read write) {f : Option Doc} (hf : ∀ d ∈ f, d.InJson)
    {l : Dict α} (hl : orDefault [] (dict? read) f = some l) :
    Restored (dict? read) (fun l => .object (l.mapValues write)) l := by
  obtain ⟨hdistinct, hvalues⟩ := exists_of_orEmpty hf hl
  refine restored_dict? hdistinct fun e he => ?_
  obtain ⟨x, hx, hread⟩ := hvalues e he
  exact h x e.2 hx hread

end Lists

end Doc

/-! ## Texts -/

namespace Json

namespace Reader

section Members

variable {α : Type} {one : List Char → Option (α × List Char)} {close : Char} {P : α → Prop}

theorem forall_mem_members (hone : ∀ {cs x rest}, one cs = some (x, rest) → P x) {bound : Nat}
    {cs : List Char} {xs : List α} {rest : List Char}
    (h : members one close bound cs = some (xs, rest)) : ∀ x ∈ xs, P x := by
  induction bound generalizing cs xs with
  | zero => cases h
  | succ bound ih =>
    obtain ⟨⟨x, cs₁⟩, hx, h⟩ := Option.bind_eq_some_iff.mp h
    dsimp only at h
    split at h
    · split at h
      · cases h
        exact List.forall_mem_singleton.mpr (hone hx)
      · split at h
        · obtain ⟨⟨xs', cs₂⟩, hxs, h⟩ := Option.bind_eq_some_iff.mp h
          cases h
          exact List.forall_mem_cons.mpr ⟨hone hx, ih hxs⟩
        · cases h
    · cases h

theorem forall_mem_enclosed (hone : ∀ {cs x rest}, one cs = some (x, rest) → P x)
    {cs : List Char} {xs : List α} {rest : List Char}
    (h : enclosed one close cs = some (xs, rest)) : ∀ x ∈ xs, P x := by
  unfold enclosed at h
  split at h
  · cases h
  · split at h
    · cases h
      exact fun x hx => absurd hx List.not_mem_nil
    · exact forall_mem_members hone h

end Members

theorem inJson_of_field {value : List Char → Option (Doc × List Char)}
    (hvalue : ∀ {cs d rest}, value cs = some (d, rest) → d.InJson) {cs : List Char} {e : Key × Doc}
    {rest : List Char} (h : field value cs = some (e, rest)) :
    e.1.plain = false ∧ e.2.InJson := by
  unfold field at h
  split at h
  · obtain ⟨⟨key, cs₁⟩, -, h⟩ := Option.bind_eq_some_iff.mp h
    dsimp only at h
    split at h
    · obtain ⟨⟨v, cs₂⟩, hv, h⟩ := Option.bind_eq_some_iff.mp h
      cases h
      exact ⟨rfl, hvalue hv⟩
    · cases h
  · cases h

theorem inJson_of_value {levels : Nat} {cs : List Char} {d : Doc} {rest : List Char}
    (h : value levels cs = some (d, rest)) : d.InJson := by
  -- By strong induction, so that the levels are taken apart where the text opens one.
  induction levels using Nat.strongRecOn generalizing cs d rest with
  | _ levels ih =>
    unfold value at h
    split at h
    case h_1 | h_2 | h_3 =>
      cases h
      trivial
    case h_4 =>
      obtain ⟨⟨s, rest'⟩, -, h⟩ := Option.map_eq_some_iff.mp h
      cases h
      trivial
    case h_5 =>
      split at h
      · cases h
      · next levels =>
        obtain ⟨⟨items, rest'⟩, hitems, h⟩ := Option.map_eq_some_iff.mp h
        cases h
        exact Doc.itemsInJson_iff.mpr
          (forall_mem_enclosed (ih levels (Nat.lt_succ_self levels)) hitems)
    case h_6 =>
      split at h
      · cases h
      · next levels =>
        obtain ⟨⟨entries, rest'⟩, hentries, h⟩ := Option.map_eq_some_iff.mp h
        cases h
        exact Doc.entriesInJson_iff.mpr
          (forall_mem_enclosed (inJson_of_field (ih levels (Nat.lt_succ_self levels))) hentries)
    case h_7 =>
      obtain ⟨⟨literal, rest'⟩, -, h⟩ := Option.bind_eq_some_iff.mp h
      obtain ⟨n, -, h⟩ := Option.bind_eq_some_iff.mp h
      cases h
      trivial

end Reader

/-- The document of a JSON text is one of those above. -/
theorem inJson_of_document? {text : String} {d : Doc} (h : document? text = some d) : d.InJson := by
  unfold document? at h
  split at h
  · next heq =>
    split at h
    · cases h
      exact Reader.inJson_of_value heq
    · cases h
  · cases h

end Json

end StackExpr
