import AxisGraph.Layout.Checked
import Mathlib.Data.List.Nodup

/-!
Permutations between layouts. For each axis of the target, the permutation gives the place of this
axis in the source. It takes every place of the source once, and permutations compose along a chain
of layouts.
-/

namespace AxisGraph.Layout

variable {source middle target : Layout} {places first second : List Nat}

theorem permutationTo_eq_ok_iff (source target : Layout) (places : List Nat) :
    source.permutationTo target = .ok places ↔
      source.IsPermutation target ∧ target.axes.map source.axes.idxOf = places := by
  unfold permutationTo permutationTo?
  split
  · rename_i found hfound
    split at hfound
    · rename_i hperm
      cases hfound
      simp [hperm]
    · cases hfound
  · rename_i hnone
    split at hnone
    · cases hnone
    · rename_i hnot
      simp [hnot]

theorem permutationTo_of_not_isPermutation (h : ¬source.IsPermutation target) :
    source.permutationTo target = .error (.axesDiffer source target) := by
  unfold permutationTo permutationTo?
  rw [if_neg h]

/-- Two layouts hold the same axes exactly when they agree in canonical order. -/
theorem canonical_eq_iff (source target : Layout) :
    source.canonical = target.canonical ↔ source.IsPermutation target := by
  rw [isPermutation_iff]
  constructor
  · intro h axis
    rw [← mem_canonical, h, mem_canonical]
  · intro h
    exact Layout.ext (List.filter_congr fun axis _ => decide_eq_decide.mpr (h axis))

theorem map_idxOf_axes (source : Layout) :
    source.axes.map source.axes.idxOf = List.range source.rank := by
  refine List.ext_getElem (by simp [rank]) ?_
  intro i hi _
  rw [List.getElem_map, List.getElem_range]
  exact source.nodup.idxOf_getElem i _

theorem perm_range_of_permutationTo (h : source.permutationTo target = .ok places) :
    places.Perm (List.range source.rank) := by
  obtain ⟨hperm, rfl⟩ := (permutationTo_eq_ok_iff source target places).mp h
  rw [← map_idxOf_axes]
  exact hperm.symm.map source.axes.idxOf

/-- Read through the permutation, the source is laid out as the target. -/
theorem getElem?_of_permutationTo (h : source.permutationTo target = .ok places) (i : Nat) :
    target.axes[i]? = places[i]?.bind fun place => source.axes[place]? := by
  obtain ⟨hperm, rfl⟩ := (permutationTo_eq_ok_iff source target places).mp h
  rw [List.getElem?_map]
  cases haxis : target.axes[i]? with
  | none => rfl
  | some axis =>
    have hmem : axis ∈ source.axes :=
      (isPermutation_iff.mp hperm axis).mpr (List.mem_of_getElem? haxis)
    exact (List.getElem?_idxOf hmem).symm

/-- Along a chain of layouts, the places of the second permutation are looked up in the first. -/
theorem permutationTo_trans (hfirst : source.permutationTo middle = .ok first)
    (hsecond : middle.permutationTo target = .ok second) :
    ∃ direct, source.permutationTo target = .ok direct ∧
      ∀ i : Nat, direct[i]? = second[i]?.bind fun place => first[place]? := by
  obtain ⟨hperm, rfl⟩ := (permutationTo_eq_ok_iff source middle first).mp hfirst
  obtain ⟨hperm', rfl⟩ := (permutationTo_eq_ok_iff middle target second).mp hsecond
  refine ⟨_, (permutationTo_eq_ok_iff source target _).mpr ⟨hperm.trans hperm', rfl⟩, ?_⟩
  intro i
  simp only [List.getElem?_map]
  cases haxis : target.axes[i]? with
  | none => rfl
  | some axis =>
    have hmem : axis ∈ middle.axes :=
      (isPermutation_iff.mp hperm' axis).mpr (List.mem_of_getElem? haxis)
    simp only [Option.map_some, Option.bind_some, List.getElem?_idxOf hmem]

end AxisGraph.Layout
