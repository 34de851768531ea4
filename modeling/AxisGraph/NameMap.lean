/-!
Maps from names to values, kept in ascending order of the names. A map is determined by its lookups,
so the order of insertions under different names leaves no trace.
-/

namespace AxisGraph

/-- Entries with strictly ascending names. -/
@[ext]
structure NameMap (α : Type) where
  entries : List (String × α)
  sorted : (entries.map Prod.fst).Pairwise (· < ·)
  deriving DecidableEq

namespace NameMap

variable {α β : Type}

def empty : NameMap α := ⟨[], .nil⟩

instance : EmptyCollection (NameMap α) := ⟨empty⟩

instance : Inhabited (NameMap α) := ⟨empty⟩

def find? (map : NameMap α) (name : String) : Option α :=
  map.entries.lookup name

def contains (map : NameMap α) (name : String) : Bool :=
  (map.find? name).isSome

def values (map : NameMap α) : List α :=
  map.entries.map Prod.snd

/-- Put an entry in its place, over an old one of the same name. -/
def insertEntry (name : String) (value : α) : List (String × α) → List (String × α)
  | [] => [(name, value)]
  | (first, old) :: rest =>
    if name < first then (name, value) :: (first, old) :: rest
    else if name = first then (name, value) :: rest
    else (first, old) :: insertEntry name value rest

theorem mem_keys_insertEntry {name key : String} {value : α} {entries : List (String × α)} :
    key ∈ (insertEntry name value entries).map Prod.fst ↔
      key = name ∨ key ∈ entries.map Prod.fst := by
  induction entries with
  | nil => simp [insertEntry]
  | cons entry rest ih =>
    simp only [insertEntry]
    split
    · simp
    · split
      · rename_i heq
        simp [heq]
      · simp only [List.map_cons, List.mem_cons, ih]
        exact or_left_comm

theorem pairwise_insertEntry (name : String) (value : α) (entries : List (String × α))
    (h : (entries.map Prod.fst).Pairwise (· < ·)) :
    ((insertEntry name value entries).map Prod.fst).Pairwise (· < ·) := by
  induction entries with
  | nil => simp [insertEntry]
  | cons entry rest ih =>
    simp only [List.map_cons, List.pairwise_cons] at h
    simp only [insertEntry]
    split
    · rename_i hlt
      simp only [List.map_cons, List.pairwise_cons, List.mem_cons]
      refine ⟨?_, h⟩
      rintro key (rfl | hkey)
      · exact hlt
      · exact String.lt_trans hlt (h.1 key hkey)
    · rename_i hge
      split
      · rename_i heq
        simp only [List.map_cons, List.pairwise_cons]
        exact heq ▸ h
      · rename_i hne
        simp only [List.map_cons, List.pairwise_cons]
        refine ⟨?_, ih h.2⟩
        intro key hkey
        rcases mem_keys_insertEntry.1 hkey with rfl | hrest
        · rcases Std.lt_trichotomy key entry.1 with hlt | heq | hgt
          · exact absurd hlt hge
          · exact absurd heq hne
          · exact hgt
        · exact h.1 key hrest

def insert (map : NameMap α) (name : String) (value : α) : NameMap α :=
  ⟨insertEntry name value map.entries, pairwise_insertEntry name value map.entries map.sorted⟩

/-- Insert entries one after the other. -/
def insertAll (map : NameMap α) (entries : List (String × α)) : NameMap α :=
  entries.foldl (fun map entry => map.insert entry.1 entry.2) map

theorem lookup_cons_eq_ite (key name : String) (value : α) (entries : List (String × α)) :
    ((name, value) :: entries).lookup key =
      if key = name then some value else entries.lookup key := by
  by_cases h : key = name
  · simp [h]
  · have hbeq : (key == name) = false := by simpa using h
    simp [List.lookup_cons, h, hbeq]

theorem lookup_insertEntry (name key : String) (value : α) (entries : List (String × α)) :
    (insertEntry name value entries).lookup key =
      if key = name then some value else entries.lookup key := by
  induction entries with
  | nil => simp [insertEntry, lookup_cons_eq_ite]
  | cons entry rest ih =>
    obtain ⟨first, old⟩ := entry
    simp only [insertEntry]
    split
    · rw [lookup_cons_eq_ite]
    · split
      · rename_i heq
        subst heq
        simp only [lookup_cons_eq_ite]
        split <;> rfl
      · rename_i hne
        simp only [lookup_cons_eq_ite, ih]
        by_cases hkey : key = first
        · subst hkey
          simp [Ne.symm hne]
        · simp [hkey]

@[simp]
theorem find?_insert (map : NameMap α) (name key : String) (value : α) :
    (map.insert name value).find? key = if key = name then some value else map.find? key :=
  lookup_insertEntry name key value map.entries

@[simp]
theorem find?_empty (key : String) : (∅ : NameMap α).find? key = none :=
  rfl

end NameMap

end AxisGraph
