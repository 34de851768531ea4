import AxisGraph.Wide
import AxisGraph.Window.Basic

/-!
Output extents along one axis. Pooling places windows until the padded input is covered, so its
last window may hang over the end; convolution counts only windows that lie inside; transposed
convolution goes the other way and spreads the input out.
-/

namespace AxisGraph

namespace Wide

/-- A result of wide arithmetic along an axis, which must not have overflowed. -/
def noOverflow (axis : SpatialAxis) : Option Int → Except ShapeIssue Int
  | some value => .ok value
  | none => .error (.overflow axis)

end Wide

/-- An inferred extent must be positive and fit in a word. -/
def Extent.ofInferred (axis : SpatialAxis) (value : Int) : Except ShapeIssue Extent :=
  match (InRange.ofInt? value : Option Extent) with
  | some extent => .ok extent
  | none =>
    if 0 < value then .error (.extentTooLarge value axis)
    else .error (.extentNotPositive value axis)

namespace Sweep

/-- The input with the padding on both of its sides. -/
def padded (sweep : Sweep) (input : Extent) : Option Int := do
  let margins ← Wide.mul 2 sweep.padding.val
  Wide.add input.val margins

/-- Least number of windows that cover a padded input. -/
def coveringWindows (sweep : Sweep) (padded : Int) : Option Int := do
  let overhang ← Wide.sub sweep.stride.val sweep.kernel.val
  let overhang ← Wide.sub overhang 1
  let numerator ← Wide.add padded overhang
  let steps ← Wide.floorDiv numerator sweep.stride.val
  Wide.add steps 1

/-- Greatest number of windows of the given kernel inside a padded input. -/
def insideWindows (sweep : Sweep) (kernel : Extent) (padded : Int) : Option Int := do
  let room ← Wide.sub padded kernel.val
  let steps ← Wide.floorDiv room sweep.stride.val
  Wide.add steps 1

/-- Positions reached when each input position is stretched to a window, less the padding. -/
def expanse (sweep : Sweep) (input : Extent) : Option Int := do
  let steps ← Wide.sub input.val 1
  let stretched ← Wide.mul steps sweep.stride.val
  let reached ← Wide.add stretched sweep.kernel.val
  let margins ← Wide.mul 2 sweep.padding.val
  Wide.sub reached margins

/-- A pooled extent, and whether the last window fails to end exactly with the padded input. -/
structure Pooled where
  extent : Extent
  edgeIgnored : Bool
  deriving DecidableEq

def pooled (sweep : Sweep) (axis : SpatialAxis) (input : Extent) : Except ShapeIssue Pooled := do
  let padded ← Wide.noOverflow axis (sweep.padded input)
  if padded < sweep.kernel.val then
    .error (.kernelTooLarge sweep.kernel.val padded axis)
  else
    let windows ← Wide.noOverflow axis (sweep.coveringWindows padded)
    let extent ← Extent.ofInferred axis windows
    return { extent, edgeIgnored := (padded - sweep.kernel.val) % sweep.stride.val != 0 }

/-- The kernel is the dilated one. -/
def convolved (sweep : Sweep) (kernel : Extent) (axis : SpatialAxis) (input : Extent) :
    Except ShapeIssue Extent := do
  let padded ← Wide.noOverflow axis (sweep.padded input)
  if padded < kernel.val then
    .error (.dilatedKernelTooLarge kernel.val padded axis)
  else
    let windows ← Wide.noOverflow axis (sweep.insideWindows kernel padded)
    Extent.ofInferred axis windows

def expanded (sweep : Sweep) (axis : SpatialAxis) (input : Extent) : Except ShapeIssue Extent := do
  let reached ← Wide.noOverflow axis (sweep.expanse input)
  Extent.ofInferred axis reached

end Sweep

end AxisGraph
