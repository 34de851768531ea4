import AxisGraph.Axis

/-!
Layouts of tensors: arrangements of distinct axes. The rank of a layout is the rank of every tensor
that has it. Two layouts of the same axes are permutations of one another, and a permutation tells
where each axis of the target stands in the source.
-/

namespace AxisGraph

/-- The physical arrangement of a tensor's axes. No axis occurs twice. -/
@[ext]
structure Layout where
  axes : List Axis
  nodup : axes.Nodup := by decide
  deriving DecidableEq

namespace Layout

def nhwc : Layout where axes := [.batch, .height, .width, .channel]
def nchw : Layout where axes := [.batch, .channel, .height, .width]
def chwn : Layout where axes := [.channel, .height, .width, .batch]
def hwcn : Layout where axes := [.height, .width, .channel, .batch]
def hwnc : Layout where axes := [.height, .width, .batch, .channel]
def cnhw : Layout where axes := [.channel, .batch, .height, .width]
def nc : Layout where axes := [.batch, .channel]
def cn : Layout where axes := [.channel, .batch]
def ntc : Layout where axes := [.batch, .time, .channel]

instance : ToString Layout := ⟨fun layout => String.ofList (layout.axes.map Axis.label)⟩

def rank (layout : Layout) : Nat := layout.axes.length

instance : Membership Axis Layout := ⟨fun layout axis => axis ∈ layout.axes⟩

@[simp]
theorem mem_axes {axis : Axis} {layout : Layout} : axis ∈ layout.axes ↔ axis ∈ layout :=
  Iff.rfl

instance (axis : Axis) (layout : Layout) : Decidable (axis ∈ layout) :=
  inferInstanceAs (Decidable (axis ∈ layout.axes))

/-- Index of an axis in the layout. -/
def position? (layout : Layout) (axis : Axis) : Option Nat :=
  if axis ∈ layout then some (layout.axes.idxOf axis) else none

theorem position?_eq_none_iff {layout : Layout} {axis : Axis} :
    layout.position? axis = none ↔ axis ∉ layout := by
  unfold position?
  split <;> simp_all

theorem getElem?_of_position? {layout : Layout} {axis : Axis} {i : Nat}
    (h : layout.position? axis = some i) : layout.axes[i]? = some axis := by
  unfold position? at h
  split at h
  · rename_i hmem
    cases h
    have hlt := List.idxOf_lt_length_of_mem hmem
    rw [List.getElem?_eq_getElem hlt, List.getElem_idxOf hlt]
  · cases h

/-- The axes of the layout in canonical order. -/
def canonical (layout : Layout) : Layout where
  axes := Axis.all.filter (· ∈ layout)
  nodup := List.filter_sublist.nodup Axis.nodup_all

@[simp]
theorem mem_canonical {axis : Axis} {layout : Layout} :
    axis ∈ layout.canonical ↔ axis ∈ layout := by
  simp [canonical, ← mem_axes, Axis.mem_all]

theorem pairwise_canonical (layout : Layout) : layout.canonical.axes.Pairwise (· < ·) :=
  Axis.pairwise_all.sublist List.filter_sublist

/-- Both layouts hold the same axes. -/
def IsPermutation (source target : Layout) : Prop :=
  source.axes.Perm target.axes

instance (source target : Layout) : Decidable (source.IsPermutation target) :=
  inferInstanceAs (Decidable (source.axes.Perm target.axes))

theorem isPermutation_iff {source target : Layout} :
    source.IsPermutation target ↔ ∀ axis, axis ∈ source ↔ axis ∈ target :=
  ⟨fun h _ => h.mem_iff, fun h => (List.perm_ext_iff_of_nodup source.nodup target.nodup).2 h⟩

/-- For each axis of the target, its index in the source. -/
def permutationTo? (source target : Layout) : Option (List Nat) :=
  if source.IsPermutation target then some (target.axes.map source.axes.idxOf) else none

end Layout

end AxisGraph
