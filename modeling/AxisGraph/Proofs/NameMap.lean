import AxisGraph.NameMap

/-!
Lookups in maps from names. A lookup finds exactly the entries of a map, a list of entries with
distinct names can be looked up unchanged once it has been inserted, and a map is determined by what
is found in it.
-/

namespace AxisGraph.NameMap

variable {α : Type}

theorem mem_of_lookup_eq_some (entries : List (String × α)) (name : String) (value : α)
    (h : entries.lookup name = some value) : (name, value) ∈ entries := by
  induction entries with
  | nil => simp at h
  | cons entry rest ih =>
    obtain ⟨first, old⟩ := entry
    rw [lookup_cons_eq_ite] at h
    by_cases heq : name = first
    · subst first
      simp only [↓reduceIte, Option.some.injEq] at h
      subst old
      exact List.mem_cons_self
    · rw [if_neg heq] at h
      exact List.mem_cons_of_mem _ (ih h)

theorem lookup_eq_some_iff (entries : List (String × α)) (name : String) (value : α)
    (hnodup : (entries.map Prod.fst).Nodup) :
    entries.lookup name = some value ↔ (name, value) ∈ entries := by
  refine ⟨mem_of_lookup_eq_some entries name value, ?_⟩
  intro hmem
  induction entries with
  | nil => simp at hmem
  | cons entry rest ih =>
    obtain ⟨first, old⟩ := entry
    simp only [List.map_cons, List.nodup_cons] at hnodup
    rw [lookup_cons_eq_ite]
    rcases List.mem_cons.mp hmem with heq | hrest
    · simp only [Prod.mk.injEq] at heq
      rw [if_pos heq.1, heq.2]
    · have hne : name ≠ first := by
        intro heq
        subst first
        exact hnodup.1 (List.mem_map_of_mem hrest)
      rw [if_neg hne]
      exact ih hnodup.2 hrest

theorem nodup_names (map : NameMap α) : (map.entries.map Prod.fst).Nodup := by
  apply map.sorted.imp
  intro a b hlt heq
  subst b
  exact String.lt_irrefl a hlt

theorem find?_eq_some_iff (map : NameMap α) (name : String) (value : α) :
    map.find? name = some value ↔ (name, value) ∈ map.entries :=
  lookup_eq_some_iff map.entries name value map.nodup_names

theorem mem_values_iff (map : NameMap α) (value : α) :
    value ∈ map.values ↔ ∃ name, map.find? name = some value := by
  simp [values, find?_eq_some_iff]

theorem contains_iff (map : NameMap α) (name : String) :
    map.contains name = true ↔ ∃ value, map.find? name = some value :=
  Option.isSome_iff_exists

theorem find?_insert_eq_some (map : NameMap α) (name key : String) (value found : α)
    (h : (map.insert name value).find? key = some found) :
    (key = name ∧ found = value) ∨ map.find? key = some found := by
  rw [find?_insert] at h
  split at h
  · rename_i hkey
    exact Or.inl ⟨hkey, (Option.some.inj h).symm⟩
  · exact Or.inr h

theorem pairwise_entries (map : NameMap α) : map.entries.Pairwise fun a b => a.1 < b.1 :=
  List.pairwise_map.mp map.sorted

theorem nodup_entries (map : NameMap α) : map.entries.Nodup := by
  refine map.pairwise_entries.imp ?_
  intro a b hlt heq
  subst b
  exact String.lt_irrefl a.1 hlt

theorem eq_of_find? (map other : NameMap α) (h : ∀ name, map.find? name = other.find? name) :
    map = other := by
  have hperm : map.entries.Perm other.entries := by
    refine (List.perm_ext_iff_of_nodup map.nodup_entries other.nodup_entries).mpr ?_
    intro entry
    rw [← find?_eq_some_iff, ← find?_eq_some_iff, h]
  refine NameMap.ext (hperm.eq_of_pairwise ?_ map.pairwise_entries other.pairwise_entries)
  intro a b _ _ hlt hgt
  exact absurd (String.lt_trans hlt hgt) (String.lt_irrefl _)

/-- Insertions under different names leave no trace of their order. -/
theorem insert_comm (map : NameMap α) (first second : String) (value other : α)
    (hne : first ≠ second) :
    (map.insert first value).insert second other =
      (map.insert second other).insert first value := by
  refine eq_of_find? _ _ ?_
  intro name
  simp only [find?_insert]
  by_cases hfirst : name = first
  · subst hfirst
    rw [if_neg hne, if_pos rfl, if_pos rfl]
  · rw [if_neg hfirst, if_neg hfirst]

/-- Entries with distinct names shadow the old ones and not each other. -/
theorem find?_insertAll (map : NameMap α) (entries : List (String × α)) (name : String)
    (hnodup : (entries.map Prod.fst).Nodup) :
    (map.insertAll entries).find? name = (entries.lookup name).or (map.find? name) := by
  induction entries generalizing map with
  | nil => rfl
  | cons entry rest ih =>
    obtain ⟨first, value⟩ := entry
    simp only [List.map_cons, List.nodup_cons] at hnodup
    have hstep : map.insertAll ((first, value) :: rest) =
        (map.insert first value).insertAll rest := rfl
    rw [hstep, ih (map.insert first value) hnodup.2, find?_insert, lookup_cons_eq_ite]
    by_cases heq : name = first
    · subst first
      have hnone : rest.lookup name = none := by
        rw [Option.eq_none_iff_forall_ne_some]
        intro old hold
        exact hnodup.1 (List.mem_map_of_mem (mem_of_lookup_eq_some rest name old hold))
      simp [hnone]
    · simp [heq]

theorem find?_insertAll_empty (entries : List (String × α)) (name : String) (value : α)
    (hnodup : (entries.map Prod.fst).Nodup) :
    ((∅ : NameMap α).insertAll entries).find? name = some value ↔ (name, value) ∈ entries := by
  rw [find?_insertAll ∅ entries name hnodup, find?_empty, Option.or_none]
  exact lookup_eq_some_iff entries name value hnodup

/-- Entries with distinct names are all that a new map of them holds. -/
theorem perm_insertAll_empty (entries : List (String × α))
    (hnodup : (entries.map Prod.fst).Nodup) :
    ((∅ : NameMap α).insertAll entries).entries.Perm entries := by
  have hentries : entries.Nodup :=
    List.Pairwise.of_map Prod.fst (fun _ _ hne heq => hne (congrArg Prod.fst heq)) hnodup
  refine (List.perm_ext_iff_of_nodup (nodup_entries _) hentries).mpr ?_
  rintro ⟨name, value⟩
  rw [← find?_eq_some_iff, find?_insertAll_empty entries name value hnodup]

/-! Changing all the values of a map. -/

variable {β : Type}

/-- The map with every value changed and the names kept. -/
def mapValues (f : α → β) (map : NameMap α) : NameMap β where
  entries := map.entries.map fun entry => (entry.1, f entry.2)
  sorted := by
    rw [List.map_map]
    exact map.sorted

theorem map_insertEntry (f : α → β) (name : String) (value : α) (entries : List (String × α)) :
    (insertEntry name value entries).map (fun entry => (entry.1, f entry.2)) =
      insertEntry name (f value) (entries.map fun entry => (entry.1, f entry.2)) := by
  induction entries with
  | nil => rfl
  | cons entry rest ih =>
    simp only [insertEntry, List.map_cons]
    split
    · rfl
    · split
      · rfl
      · simp only [List.map_cons, ih]

theorem mapValues_insert (f : α → β) (map : NameMap α) (name : String) (value : α) :
    (map.insert name value).mapValues f = (map.mapValues f).insert name (f value) :=
  NameMap.ext (map_insertEntry f name value map.entries)

theorem mapValues_insertAll (f : α → β) (map : NameMap α) (entries : List (String × α)) :
    (map.insertAll entries).mapValues f =
      (map.mapValues f).insertAll (entries.map fun entry => (entry.1, f entry.2)) := by
  induction entries generalizing map with
  | nil => rfl
  | cons entry rest ih =>
    exact (ih (map.insert entry.1 entry.2)).trans (by rw [mapValues_insert]; rfl)

theorem lookup_map (f : α → β) (entries : List (String × α)) (name : String) :
    (entries.map fun entry => (entry.1, f entry.2)).lookup name =
      (entries.lookup name).map f := by
  induction entries with
  | nil => rfl
  | cons entry rest ih =>
    rw [List.map_cons, lookup_cons_eq_ite, lookup_cons_eq_ite, ih]
    split <;> rfl

theorem find?_mapValues (f : α → β) (map : NameMap α) (name : String) :
    (map.mapValues f).find? name = (map.find? name).map f :=
  lookup_map f map.entries name

theorem mapValues_eq_self (f : α → α) (map : NameMap α)
    (h : ∀ value ∈ map.values, f value = value) : map.mapValues f = map := by
  have hentries : map.entries.map (fun entry => (entry.1, f entry.2)) = map.entries.map id := by
    refine List.map_congr_left ?_
    intro entry hmem
    rw [h entry.2 (List.mem_map_of_mem hmem)]
    rfl
  exact NameMap.ext (hentries.trans (List.map_id map.entries))

end AxisGraph.NameMap
