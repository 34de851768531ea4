import AxisGraph.Tensor
import Mathlib.Data.List.Nodup

/-!
Tensors through their layout and their extents. The two determine a tensor, a change of layout keeps
every extent, and resizing one axis keeps the layout and the extents of the other axes.
-/

namespace AxisGraph.Tensor

theorem lookup_eq_none_iff (dims : List (Axis × Extent)) (axis : Axis) :
    dims.lookup axis = none ↔ axis ∉ dims.map Prod.fst := by
  rw [List.lookup_eq_none_iff]
  simp only [List.mem_map, not_exists, not_and, bne_iff_ne, ne_eq]
  exact forall₂_congr fun _ _ => not_congr eq_comm

theorem extent?_eq_none_iff (tensor : Tensor) (axis : Axis) :
    tensor.extent? axis = none ↔ axis ∉ tensor.layout :=
  lookup_eq_none_iff tensor.dims axis

theorem exists_extent_iff (tensor : Tensor) (axis : Axis) :
    (∃ extent, tensor.extent? axis = some extent) ↔ axis ∈ tensor.layout := by
  rw [← Option.ne_none_iff_exists', ne_eq, extent?_eq_none_iff, not_not]

theorem extent_eq_ok_iff (tensor : Tensor) (axis : Axis) (extent : Extent) :
    tensor.extent axis = .ok extent ↔ tensor.extent? axis = some extent := by
  unfold Tensor.extent
  cases tensor.extent? axis <;> simp

/-- Entries are determined by their keys, in order, and by what is found under each key. -/
theorem eq_of_lookup (dims others : List (Axis × Extent))
    (hkeys : dims.map Prod.fst = others.map Prod.fst) (hnodup : (dims.map Prod.fst).Nodup)
    (hlookup : ∀ axis, dims.lookup axis = others.lookup axis) : dims = others := by
  induction dims generalizing others with
  | nil =>
    simp only [List.map_nil] at hkeys
    exact (List.map_eq_nil_iff.mp hkeys.symm).symm
  | cons dim rest ih =>
    obtain ⟨axis, extent⟩ := dim
    cases others with
    | nil => simp at hkeys
    | cons other others =>
      obtain ⟨axis', extent'⟩ := other
      simp only [List.map_cons, List.cons.injEq] at hkeys hnodup
      obtain ⟨rfl, hrest⟩ := hkeys
      obtain ⟨hnot, hnodup⟩ := List.nodup_cons.mp hnodup
      have hextent : extent = extent' := by simpa using hlookup axis
      subst extent'
      congr 1
      refine ih others hrest hnodup ?_
      intro key
      by_cases hkey : key = axis
      · subst key
        rw [(lookup_eq_none_iff rest axis).mpr hnot,
          (lookup_eq_none_iff others axis).mpr (hrest ▸ hnot)]
      · have hbeq : (key == axis) = false := by simpa using hkey
        simpa [List.lookup_cons, hbeq] using hlookup key

theorem eq_of_extents (tensor other : Tensor) (hlayout : tensor.layout = other.layout)
    (hextents : ∀ axis, tensor.extent? axis = other.extent? axis) : tensor = other :=
  Tensor.ext (eq_of_lookup tensor.dims other.dims (congrArg Layout.axes hlayout) tensor.nodup
    hextents)

theorem getElem?_of_lookup (dims : List (Axis × Extent)) (axis : Axis) (extent : Extent)
    (h : dims.lookup axis = some extent) :
    (dims.map Prod.snd)[(dims.map Prod.fst).idxOf axis]? = some extent := by
  induction dims with
  | nil => cases h
  | cons dim rest ih =>
    obtain ⟨first, old⟩ := dim
    by_cases heq : first = axis
    · subst first
      simpa using h
    · have hbeq : (axis == first) = false := by simpa using Ne.symm heq
      rw [List.lookup_cons, hbeq] at h
      simpa [List.idxOf_cons_ne _ heq] using ih h

theorem lookup_dimsAlong (tensor : Tensor) (axes : List Axis) (axis : Axis) :
    (tensor.dimsAlong axes).lookup axis = if axis ∈ axes then tensor.extent? axis else none := by
  induction axes with
  | nil => rfl
  | cons first rest ih =>
    simp only [dimsAlong, List.filterMap_cons] at ih ⊢
    by_cases heq : axis = first
    · subst axis
      cases hfirst : tensor.extent? first with
      | none => simp [ih, hfirst]
      | some extent => simp
    · have hbeq : (axis == first) = false := by simpa using heq
      cases hfirst : tensor.extent? first with
      | none => simp [ih, heq]
      | some extent => simp [List.lookup_cons, hbeq, ih, heq]

theorem map_fst_dimsAlong (tensor : Tensor) (axes : List Axis)
    (hmem : ∀ axis ∈ axes, axis ∈ tensor.layout) :
    (tensor.dimsAlong axes).map Prod.fst = axes := by
  induction axes with
  | nil => rfl
  | cons first rest ih =>
    obtain ⟨hfirst, hrest⟩ := List.forall_mem_cons.mp hmem
    obtain ⟨extent, hextent⟩ := (exists_extent_iff tensor first).mpr hfirst
    have htail := ih hrest
    simp only [dimsAlong, List.filterMap_cons] at htail ⊢
    simp [hextent, htail]

/-- A change of layout succeeds exactly between permutations, and gives the one tensor that has the
target layout and the old extents. -/
theorem changeLayout_eq_ok_iff (tensor changed : Tensor) (target : Layout) :
    tensor.changeLayout target = .ok changed ↔ tensor.layout.IsPermutation target ∧
      changed.layout = target ∧ ∀ axis, changed.extent? axis = tensor.extent? axis := by
  unfold changeLayout
  split
  · rename_i hperm
    have haxes := Layout.isPermutation_iff.mp hperm
    have hlayout : (tensor.arrange target).layout = target :=
      Layout.ext (map_fst_dimsAlong tensor target.axes fun axis hmem => (haxes axis).mpr hmem)
    have hextents : ∀ axis, (tensor.arrange target).extent? axis = tensor.extent? axis := by
      intro axis
      have hlookup := lookup_dimsAlong tensor target.axes axis
      split at hlookup
      · exact hlookup
      · rename_i hnot
        have hnone := (extent?_eq_none_iff tensor axis).mpr fun hmem => hnot ((haxes axis).mp hmem)
        rw [hnone]
        exact hlookup
    simp only [Except.ok.injEq, hperm, true_and]
    constructor
    · intro heq
      subst changed
      exact ⟨hlayout, hextents⟩
    · intro h
      refine eq_of_extents _ changed (hlayout.trans h.1.symm) ?_
      intro axis
      rw [hextents, h.2]
  · rename_i hnot
    simp [hnot]

theorem extent_eq_of_changeLayout (tensor changed : Tensor) (target : Layout)
    (h : tensor.changeLayout target = .ok changed) (axis : Axis) (hmem : axis ∈ tensor.layout) :
    changed.extent axis = tensor.extent axis := by
  obtain ⟨-, -, hextents⟩ := (changeLayout_eq_ok_iff tensor changed target).mp h
  obtain ⟨extent, hextent⟩ := (exists_extent_iff tensor axis).mpr hmem
  have hold := (extent_eq_ok_iff tensor axis extent).mpr hextent
  have hnew := (extent_eq_ok_iff changed axis extent).mpr ((hextents axis).trans hextent)
  rw [hold, hnew]

/-- Two arrangements of one tensor are arrangements of each other. -/
theorem changeLayout_of_common (tensor first second : Tensor) (layout target : Layout)
    (hfirst : tensor.changeLayout layout = .ok first)
    (hsecond : tensor.changeLayout target = .ok second) :
    first.changeLayout target = .ok second := by
  obtain ⟨hperm, hlayout, hextents⟩ := (changeLayout_eq_ok_iff tensor first layout).mp hfirst
  obtain ⟨hperm', hlayout', hextents'⟩ := (changeLayout_eq_ok_iff tensor second target).mp hsecond
  refine (changeLayout_eq_ok_iff first second target).mpr ⟨?_, hlayout', ?_⟩
  · have hback : layout.IsPermutation target := hperm.symm.trans hperm'
    rwa [hlayout]
  · intro axis
    rw [hextents', hextents]

/-- The tensor with another extent on one axis, if it has the axis. -/
def resize (tensor : Tensor) (axis : Axis) (extent : Extent) : Tensor where
  dims := tensor.dims.map fun dim => (dim.1, if dim.1 = axis then extent else dim.2)
  nodup := by
    rw [List.map_map]
    exact tensor.nodup

@[simp]
theorem layout_resize (tensor : Tensor) (axis : Axis) (extent : Extent) :
    (tensor.resize axis extent).layout = tensor.layout := by
  simp [layout, resize, Function.comp_def]

theorem extent?_resize (tensor : Tensor) (axis other : Axis) (extent : Extent) :
    (tensor.resize axis extent).extent? other =
      (tensor.extent? other).map fun old => if other = axis then extent else old := by
  unfold extent? resize
  simp only
  induction tensor.dims with
  | nil => rfl
  | cons dim rest ih =>
    obtain ⟨first, old⟩ := dim
    simp only [List.map_cons, List.lookup_cons]
    by_cases heq : other = first
    · subst other
      simp
    · have hbeq : (other == first) = false := by simpa using heq
      simpa [hbeq] using ih

theorem extent?_resize_of_ne (tensor : Tensor) (axis other : Axis) (extent : Extent)
    (hne : other ≠ axis) : (tensor.resize axis extent).extent? other = tensor.extent? other := by
  simp [extent?_resize, hne]

theorem extent?_resize_self (tensor : Tensor) (axis : Axis) (old extent : Extent)
    (h : tensor.extent? axis = some old) :
    (tensor.resize axis extent).extent? axis = some extent := by
  simp [extent?_resize, h]

theorem changeLayout_resize (tensor changed : Tensor) (target : Layout) (axis : Axis)
    (extent : Extent) (h : tensor.changeLayout target = .ok changed) :
    (tensor.resize axis extent).changeLayout target = .ok (changed.resize axis extent) := by
  obtain ⟨hperm, hlayout, hextents⟩ := (changeLayout_eq_ok_iff tensor changed target).mp h
  refine (changeLayout_eq_ok_iff _ _ target).mpr ⟨?_, ?_, ?_⟩
  · rwa [layout_resize]
  · rwa [layout_resize]
  · intro other
    rw [extent?_resize, extent?_resize, hextents]

/-- Two tensors are the parts of a third one along an axis. -/
structure Joins (axis : Axis) (first second whole : Tensor) : Prop where
  first_layout : first.layout = whole.layout
  second_layout : second.layout = whole.layout
  first_extent : ∀ other ≠ axis, first.extent? other = whole.extent? other
  second_extent : ∀ other ≠ axis, second.extent? other = whole.extent? other
  sum : ∃ a b c, first.extent? axis = some a ∧ second.extent? axis = some b ∧
    whole.extent? axis = some c ∧ a.val + b.val = c.val

theorem joins_resize (tensor : Tensor) (axis : Axis) (whole first second : Extent)
    (hwhole : tensor.extent? axis = some whole) (hsum : first.val + second.val = whole.val) :
    Joins axis (tensor.resize axis first) (tensor.resize axis second) tensor where
  first_layout := layout_resize tensor axis first
  second_layout := layout_resize tensor axis second
  first_extent other hne := extent?_resize_of_ne tensor axis other first hne
  second_extent other hne := extent?_resize_of_ne tensor axis other second hne
  sum := ⟨first, second, whole, extent?_resize_self tensor axis whole first hwhole,
    extent?_resize_self tensor axis whole second hwhole, hwhole, hsum⟩

end AxisGraph.Tensor
