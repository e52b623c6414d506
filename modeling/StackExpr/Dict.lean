/-!
# Dictionaries in the order of their keys' first appearance

A dictionary is a list of entries. Inserting a key that is already there replaces its value and
keeps its place, so a dictionary built by `insert` alone (`ofEntries`) holds every key once
(`distinct_ofEntries`).
-/

namespace StackExpr

/-- Entries in the order in which their keys first appeared. -/
abbrev Dict (α : Type) := List (String × α)

namespace Dict

variable {α β : Type}

/-- Every key appears once. -/
def Distinct (d : Dict α) : Prop := (d.map Prod.fst).Nodup

/-- The value of a key. -/
def get? : Dict α → String → Option α
  | [], _ => none
  | (k, v) :: d, key => if k = key then some v else get? d key

/-- Gives a key its value: in place if the key is there, else at the end. -/
def insert : Dict α → String → α → Dict α
  | [], key, value => [(key, value)]
  | (k, v) :: d, key, value =>
    if k = key then (k, value) :: d else (k, v) :: insert d key value

/-- Inserts entries one after the other. -/
def insertAll (d : Dict α) (entries : List (String × α)) : Dict α :=
  entries.foldl (fun d (k, v) => d.insert k v) d

/-- The dictionary of a list of entries: a repeated key keeps its first place and takes its last
value. -/
def ofEntries (entries : List (String × α)) : Dict α := insertAll [] entries

/-- Changes the values and keeps the keys. -/
def mapValues (f : α → β) (d : Dict α) : Dict β := d.map fun (k, v) => (k, f v)

/-! ## Keys -/

theorem mem_of_get? {d : Dict α} {key : String} {v : α} (h : d.get? key = some v) :
    (key, v) ∈ d := by
  induction d with
  | nil => cases h
  | cons e d ih =>
    obtain ⟨k₀, v₀⟩ := e
    rw [get?] at h
    split at h
    · next hk =>
      rw [← hk, ← Option.some.inj h]
      exact List.mem_cons_self
    · exact List.mem_cons_of_mem _ (ih h)

theorem get?_insert (d : Dict α) (k : String) (v : α) (key : String) :
    (d.insert k v).get? key = if k = key then some v else d.get? key := by
  induction d with
  | nil => simp [insert, get?]
  | cons e d ih =>
    obtain ⟨k₀, v₀⟩ := e
    by_cases h : k₀ = k <;> by_cases hk : k₀ = key <;> grind [insert, get?]

/-- Where every key appears once, each entry is found by its key. -/
theorem get?_of_mem {d : Dict α} (h : d.Distinct) {key : String} {v : α} (hm : (key, v) ∈ d) :
    d.get? key = some v := by
  induction d with
  | nil => exact absurd hm List.not_mem_nil
  | cons e d ih =>
    obtain ⟨k₀, v₀⟩ := e
    obtain ⟨hk₀, hd⟩ := List.nodup_cons.mp h
    rw [get?]
    rcases List.mem_cons.mp hm with he | hm
    · obtain ⟨rfl, rfl⟩ := Prod.mk.inj he
      rw [if_pos rfl]
    · have hne : k₀ ≠ key := by
        rintro rfl
        exact hk₀ (List.mem_map.mpr ⟨_, hm, rfl⟩)
      rw [if_neg hne]
      exact ih hd hm

/-- What is found after entries were inserted was there before or is one of them. -/
theorem get?_or_mem_of_insertAll {d : Dict α} {entries : List (String × α)} {key : String} {v : α}
    (h : (d.insertAll entries).get? key = some v) : d.get? key = some v ∨ (key, v) ∈ entries := by
  induction entries generalizing d with
  | nil => exact Or.inl h
  | cons e es ih =>
    obtain ⟨k, v₀⟩ := e
    rcases ih h with hinsert | hmem
    · rw [get?_insert] at hinsert
      split at hinsert
      · next hk =>
        rw [← hk, ← Option.some.inj hinsert]
        exact Or.inr List.mem_cons_self
      · exact Or.inl hinsert
    · exact Or.inr (List.mem_cons_of_mem _ hmem)

theorem mem_keys_insert {d : Dict α} {k : String} {v : α} {key : String} :
    key ∈ (d.insert k v).map Prod.fst ↔ key = k ∨ key ∈ d.map Prod.fst := by
  induction d with
  | nil => simp [insert]
  | cons e d ih =>
    obtain ⟨k₀, v₀⟩ := e
    by_cases h : k₀ = k <;> grind [insert]

theorem mem_keys_insertAll {d : Dict α} {entries : List (String × α)} {key : String} :
    key ∈ (d.insertAll entries).map Prod.fst ↔
      key ∈ d.map Prod.fst ∨ key ∈ entries.map Prod.fst := by
  induction entries generalizing d with
  | nil => simp [insertAll]
  | cons e es ih =>
    have hstep : d.insertAll (e :: es) = (d.insert e.1 e.2).insertAll es := rfl
    rw [hstep, ih, mem_keys_insert, List.map_cons, List.mem_cons, or_assoc, or_left_comm]

theorem isSome_get?_iff {d : Dict α} {key : String} :
    (d.get? key).isSome ↔ key ∈ d.map Prod.fst := by
  induction d with
  | nil => simp [get?]
  | cons e d ih =>
    obtain ⟨k, v⟩ := e
    by_cases hk : k = key <;> grind [get?]

theorem distinct_insert {d : Dict α} (h : d.Distinct) (k : String) (v : α) :
    (d.insert k v).Distinct := by
  induction d with
  | nil => simp [insert, Distinct]
  | cons e d ih =>
    obtain ⟨k₀, v₀⟩ := e
    simp only [Distinct, List.map_cons, List.nodup_cons] at h ih
    by_cases hk : k₀ = k
    · subst hk
      simpa only [insert, if_true, Distinct, List.map_cons, List.nodup_cons] using h
    · simp only [insert, hk, if_false, Distinct, List.map_cons, List.nodup_cons]
      refine ⟨?_, ih h.2⟩
      rw [mem_keys_insert]
      simp [hk, h.1]

theorem distinct_insertAll {d : Dict α} (h : d.Distinct) (entries : List (String × α)) :
    (d.insertAll entries).Distinct := by
  induction entries generalizing d with
  | nil => exact h
  | cons e es ih => exact ih (distinct_insert h e.1 e.2)

/-- A dictionary built from entries holds every key once. -/
theorem distinct_ofEntries (entries : List (String × α)) : (ofEntries entries).Distinct :=
  distinct_insertAll (by simp [Distinct]) entries

theorem insert_of_notMem {d : Dict α} {k : String} (h : k ∉ d.map Prod.fst) (v : α) :
    d.insert k v = d ++ [(k, v)] := by
  induction d with
  | nil => rfl
  | cons e d ih => grind [insert]

theorem insertAll_of_distinct {d entries : Dict α} (h : Distinct (d ++ entries)) :
    d.insertAll entries = d ++ entries := by
  induction entries generalizing d with
  | nil => simp [insertAll]
  | cons e es ih =>
    obtain ⟨k, v⟩ := e
    have hk : k ∉ d.map Prod.fst := by
      simp only [Distinct, List.map_append, List.map_cons, List.nodup_append] at h
      grind
    have hstep : d.insertAll ((k, v) :: es) = (d ++ [(k, v)]).insertAll es := by
      simp [insertAll, insert_of_notMem hk]
    rw [hstep, ih (by simpa using h)]
    simp

/-- Entries with distinct keys are a dictionary as they stand. -/
theorem ofEntries_of_distinct {entries : Dict α} (h : entries.Distinct) :
    ofEntries entries = entries := by
  simpa [ofEntries] using insertAll_of_distinct (d := []) (by simpa using h)

end Dict

end StackExpr
