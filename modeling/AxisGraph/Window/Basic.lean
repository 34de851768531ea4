import AxisGraph.Error

/-!
Sliding windows over the spatial axes: kernel, stride and padding, each checked when the window is
built. Along one axis a window is a sweep.
-/

namespace AxisGraph

/-- Kernel, stride and padding of a two-dimensional sliding window. -/
structure Window where
  ksize : Spatial Size
  stride : Spatial Size
  padding : Spatial Margin
  deriving DecidableEq

/-- A window along one axis. -/
structure Sweep where
  kernel : Size
  stride : Size
  padding : Margin
  deriving DecidableEq

namespace Window

/-- A parameter of an operator of this kind, with both components in range. -/
def checkParameter {lo hi : Nat} (kind : String) (parameter : WindowParameter)
    (value : Spatial Int) : Except GraphError (Spatial (InRange lo hi)) :=
  match (value.map InRange.ofInt?).all? with
  | some checked => .ok checked
  | none => .error (.invalidParameter kind parameter value)

theorem checkParameter_eq_ok_iff {lo hi : Nat} {kind : String} {parameter : WindowParameter}
    {value : Spatial Int} {checked : Spatial (InRange lo hi)} :
    checkParameter kind parameter value = .ok checked ↔
      ∀ axis, ((checked.along axis).val : Int) = value.along axis := by
  have key : (value.map InRange.ofInt?).all? = some checked ↔
      ∀ axis, ((checked.along axis).val : Int) = value.along axis := by
    simp only [Spatial.all?_eq_some_iff, Spatial.along_map, InRange.ofInt?_eq_some_iff]
  unfold checkParameter
  rw [← key]
  split <;> simp_all

/-- The window of an operator of this kind. The parameters are checked in the order in which they
are listed. -/
def ofParameters (kind : String) (ksize stride padding : Spatial Int) :
    Except GraphError Window := do
  let ksize ← checkParameter kind .ksize ksize
  let stride ← checkParameter kind .stride stride
  let padding ← checkParameter kind .padding padding
  return { ksize, stride, padding }

def along (window : Window) (axis : SpatialAxis) : Sweep where
  kernel := window.ksize.along axis
  stride := window.stride.along axis
  padding := window.padding.along axis

end Window

end AxisGraph
