import AxisGraph.Proofs.Layout
import AxisGraph.Proofs.Tensor

/-!
Changes of layout lose nothing. The new shape reads the old one through the permutation of the
layouts, every axis keeps its extent, and changes made one after the other come down to the last of
them.
-/

namespace AxisGraph

/-- An extent as a number of the shape that a new tensor is asked for. -/
def Extent.toWord (extent : Extent) : Word where
  val := extent.val
  lo_le := Nat.zero_le _
  le_hi := extent.le_hi

namespace Tensor

/-- The shape as it is handed to a new tensor. -/
def words (tensor : Tensor) : List Word := tensor.shape.map Extent.toWord

theorem mapM_ofNat?_toWord (extents : List Extent) :
    (extents.map Extent.toWord).mapM (fun word => (InRange.ofNat? word.val : Option Extent)) =
      some extents := by
  induction extents with
  | nil => rfl
  | cons extent rest ih =>
    have hfirst : (InRange.ofNat? extent.toWord.val : Option Extent) = some extent :=
      InRange.ofNat?_val extent
    rw [List.map_cons, List.mapM_cons, hfirst, ih]
    rfl

/-- A new tensor of the shape and the layout of a tensor is that tensor. -/
theorem ofShape_words (tensor : Tensor) : ofShape tensor.words tensor.layout = .ok tensor := by
  have hlength : tensor.words.length = tensor.layout.rank := by
    rw [words, List.length_map, length_shape]
  unfold ofShape
  rw [if_pos hlength]
  simp only [words, mapM_ofNat?_toWord]
  refine congrArg Except.ok (Tensor.ext ?_)
  exact (List.zip_of_prod rfl rfl).symm

/-- The extents stand in the shape as their axes stand in the layout. -/
theorem getElem?_shape (tensor : Tensor) (i : Nat) :
    tensor.shape[i]? = tensor.layout.axes[i]?.bind tensor.extent? := by
  cases haxis : tensor.layout.axes[i]? with
  | none =>
    have hle := List.getElem?_eq_none_iff.mp haxis
    exact List.getElem?_eq_none_iff.mpr (le_of_eq_of_le tensor.length_shape hle)
  | some axis =>
    obtain ⟨hlt, hget⟩ := List.getElem?_eq_some_iff.mp haxis
    obtain ⟨extent, hextent⟩ :=
      (tensor.exists_extent_iff axis).mpr (List.mem_of_getElem? haxis)
    have hplace : tensor.layout.axes.idxOf axis = i := by
      rw [← hget]
      exact tensor.layout.nodup.idxOf_getElem i hlt
    have hshape := getElem?_of_lookup tensor.dims axis extent hextent
    rw [Option.bind_some, hextent, ← hplace]
    exact hshape

theorem extent_of_not_mem (tensor : Tensor) (axis : Axis) (h : axis ∉ tensor.layout) :
    tensor.extent axis = .error (.axisNotFound axis tensor.layout) := by
  unfold Tensor.extent
  rw [(tensor.extent?_eq_none_iff axis).mpr h]

/-- What a tensor and its arrangement in another layout have to do with each other. -/
structure Relabels (tensor changed : Tensor) (target : Layout) : Prop where
  layout_eq : changed.layout = target
  accepted : ofShape changed.words target = .ok changed
  moves : ∃ places, tensor.layout.permutationTo target = .ok places ∧
    places.Perm (List.range tensor.layout.rank) ∧
    ∀ i : Nat, changed.shape[i]? = places[i]?.bind fun place => tensor.shape[place]?
  canonicalDims_eq : changed.canonicalDims = tensor.canonicalDims
  extent_iff : ∀ axis extent, changed.extent axis = .ok extent ↔ tensor.extent axis = .ok extent
  absent : ∀ axis, axis ∉ tensor.layout →
    tensor.extent axis = .error (.axisNotFound axis tensor.layout) ∧
      changed.extent axis = .error (.axisNotFound axis target)
  onward : ∀ next other, changed.changeLayout next = .ok other ↔
    tensor.changeLayout next = .ok other
  back : changed.changeLayout tensor.layout = .ok tensor

variable {tensor changed : Tensor} {target : Layout}

theorem canonicalDims_congr (hextents : ∀ axis, changed.extent? axis = tensor.extent? axis) :
    changed.canonicalDims = tensor.canonicalDims := by
  unfold canonicalDims dimsAlong
  simp only [hextents]

theorem getElem?_shape_of_changeLayout (h : tensor.changeLayout target = .ok changed)
    (places : List Nat) (hplaces : tensor.layout.permutationTo target = .ok places) (i : Nat) :
    changed.shape[i]? = places[i]?.bind fun place => tensor.shape[place]? := by
  obtain ⟨-, hlayout, hextents⟩ := (changeLayout_eq_ok_iff tensor changed target).mp h
  have hextents' : changed.extent? = tensor.extent? := funext hextents
  calc
    changed.shape[i]? = target.axes[i]?.bind tensor.extent? := by
      rw [getElem?_shape, hlayout, hextents']
    _ = (places[i]?.bind fun place => tensor.layout.axes[place]?).bind tensor.extent? := by
      rw [Layout.getElem?_of_permutationTo hplaces]
    _ = places[i]?.bind fun place => tensor.layout.axes[place]?.bind tensor.extent? :=
      Option.bind_assoc _ _ _
    _ = places[i]?.bind fun place => tensor.shape[place]? := by
      simp only [getElem?_shape]

theorem changeLayout_iff_of_changeLayout (h : tensor.changeLayout target = .ok changed)
    (next : Layout) (other : Tensor) :
    changed.changeLayout next = .ok other ↔ tensor.changeLayout next = .ok other := by
  obtain ⟨hperm, hlayout, hextents⟩ := (changeLayout_eq_ok_iff tensor changed target).mp h
  have hnext : changed.layout.IsPermutation next ↔ tensor.layout.IsPermutation next := by
    rw [hlayout]
    exact ⟨fun hnext => hperm.trans hnext, fun hnext => hperm.symm.trans hnext⟩
  simp only [changeLayout_eq_ok_iff, hnext, hextents]

theorem changeLayout_self (tensor : Tensor) : tensor.changeLayout tensor.layout = .ok tensor :=
  (changeLayout_eq_ok_iff tensor tensor tensor.layout).mpr ⟨.refl _, rfl, fun _ => rfl⟩

theorem relabels_of_changeLayout (h : tensor.changeLayout target = .ok changed) :
    tensor.Relabels changed target := by
  obtain ⟨hperm, hlayout, hextents⟩ := (changeLayout_eq_ok_iff tensor changed target).mp h
  have hplaces : tensor.layout.permutationTo target =
      .ok (target.axes.map tensor.layout.axes.idxOf) :=
    (Layout.permutationTo_eq_ok_iff _ target _).mpr ⟨hperm, rfl⟩
  exact {
    layout_eq := hlayout
    accepted := hlayout ▸ changed.ofShape_words
    moves := ⟨_, hplaces, Layout.perm_range_of_permutationTo hplaces,
      getElem?_shape_of_changeLayout h _ hplaces⟩
    canonicalDims_eq := canonicalDims_congr hextents
    extent_iff := fun axis extent => by rw [extent_eq_ok_iff, extent_eq_ok_iff, hextents]
    absent := fun axis hnot => by
      have hnot' : axis ∉ changed.layout := by
        rw [← extent?_eq_none_iff, hextents, extent?_eq_none_iff]
        exact hnot
      exact ⟨tensor.extent_of_not_mem axis hnot, hlayout ▸ changed.extent_of_not_mem axis hnot'⟩
    onward := changeLayout_iff_of_changeLayout h
    back := (changeLayout_iff_of_changeLayout h _ _).mpr tensor.changeLayout_self }

theorem exists_changeLayout_iff (tensor : Tensor) (target : Layout) :
    (∃ changed, tensor.changeLayout target = .ok changed) ↔ tensor.layout.IsPermutation target := by
  constructor
  · rintro ⟨changed, h⟩
    exact ((changeLayout_eq_ok_iff tensor changed target).mp h).1
  · intro h
    exact ⟨_, if_pos h⟩

/-- A change of layout succeeds exactly between layouts of the same axes, and what it gives is the
old tensor under the new layout. The permutations of the layouts compose as the changes do. -/
theorem changeLayout_lossless (tensor : Tensor) (target next : Layout) :
    (tensor.layout.IsPermutation target ↔ ∀ axis, axis ∈ tensor.layout ↔ axis ∈ target) ∧
      (tensor.layout.IsPermutation target ↔ tensor.layout.canonical = target.canonical) ∧
      (tensor.layout.IsPermutation target ↔
        ∃ places, tensor.layout.permutationTo target = .ok places) ∧
      (tensor.layout.IsPermutation target ↔
        ∃ changed, tensor.changeLayout target = .ok changed) ∧
      (¬tensor.layout.IsPermutation target →
        tensor.changeLayout target = .error (.axesDiffer tensor.layout target) ∧
          tensor.layout.permutationTo target = .error (.axesDiffer tensor.layout target)) ∧
      (∀ changed, tensor.changeLayout target = .ok changed → tensor.Relabels changed target) ∧
      ∀ first second, tensor.layout.permutationTo target = .ok first →
        target.permutationTo next = .ok second →
        ∃ direct, tensor.layout.permutationTo next = .ok direct ∧
          ∀ i : Nat, direct[i]? = second[i]?.bind fun place => first[place]? := by
  refine ⟨Layout.isPermutation_iff, (Layout.canonical_eq_iff _ _).symm, ?_,
    (tensor.exists_changeLayout_iff target).symm, ?_, fun _ => relabels_of_changeLayout,
    fun _ _ => Layout.permutationTo_trans⟩
  · simp only [Layout.permutationTo_eq_ok_iff, exists_and_left, exists_eq', and_true]
  · intro hnot
    exact ⟨if_neg hnot, Layout.permutationTo_of_not_isPermutation hnot⟩

/-- A tensor with a different extent on every axis. -/
def brick : Tensor where
  dims := [(.batch, { val := 11 }), (.height, { val := 13 }), (.width, { val := 17 }),
    (.channel, { val := 19 })]

/-- The channels come first in the new layout, so each of the other axes moves on by one. -/
theorem changeLayout_lossless_brick :
    ∃ changed direct, brick.changeLayout .cnhw = .ok changed ∧ brick.Relabels changed .cnhw ∧
      changed.shape.map InRange.val = [19, 11, 13, 17] ∧
      brick.layout.permutationTo .cnhw = .ok [3, 0, 1, 2] ∧
      Layout.cnhw.permutationTo .hwcn = .ok [2, 3, 0, 1] ∧
      brick.layout.permutationTo .hwcn = .ok direct ∧ direct[0]? = some 1 ∧
      ¬brick.layout.IsPermutation .nc ∧
      brick.changeLayout .nc = .error (.axesDiffer .nhwc .nc) := by
  obtain ⟨-, -, -, -, -, hrelabels, hcomposes⟩ := changeLayout_lossless brick .cnhw .hwcn
  obtain ⟨-, -, -, -, hrefused, -, -⟩ := changeLayout_lossless brick .nc .nc
  have hchanged : brick.changeLayout .cnhw = .ok (brick.arrange .cnhw) := rfl
  obtain ⟨direct, hdirect, hplaces⟩ := hcomposes [3, 0, 1, 2] [2, 3, 0, 1] rfl rfl
  have hnot : ¬brick.layout.IsPermutation .nc := by decide
  exact ⟨_, direct, hchanged, hrelabels _ hchanged, rfl, rfl, rfl, hdirect, hplaces 0, hnot,
    (hrefused hnot).1⟩

end Tensor

end AxisGraph
