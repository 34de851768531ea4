import AxisGraph.Operator.Image
import AxisGraph.Window.Sweep

/-!
Two-dimensional convolution, `y = op(x, w)`. Dilation spreads the kernel: a kernel of `k` positions
under dilation `d` spans `d * (k - 1) + 1`, which must fit in a word.
-/

namespace AxisGraph

/-- Span of a kernel under a dilation. -/
def dilatedSpan (kernel dilation : Size) : Nat :=
  dilation.val * (kernel.val - 1) + 1

@[simp]
theorem dilatedSpan_one (kernel : Size) : dilatedSpan kernel { val := 1 } = kernel.val := by
  have := kernel.lo_le
  simp only [dilatedSpan]
  omega

structure Convolution where
  window : Window
  dilation : Spatial Size
  fits : ∀ axis, dilatedSpan (window.ksize.along axis) (dilation.along axis) ≤ 0xffffffffffffffff
  deriving DecidableEq

namespace Convolution

def kind : String := "Convolution2D"

def slots : List String := ["x", "w"]

/-- The dilation that leaves a kernel as it is. -/
def undilated : Spatial Size := .both { val := 1 }

theorem fits_undilated (window : Window) (axis : SpatialAxis) :
    dilatedSpan (window.ksize.along axis) (undilated.along axis) ≤ 0xffffffffffffffff := by
  have hone : undilated.along axis = { val := 1 } := by
    cases axis <;> rfl
  rw [hone, dilatedSpan_one]
  exact Nat.le_trans (window.ksize.along axis).le_hi (by decide)

/-- A convolution without dilation. -/
def ofParameters (ksize stride padding : Spatial Int) : Except GraphError Convolution := do
  let window ← Window.ofParameters kind ksize stride padding
  return { window, dilation := undilated, fits := fits_undilated window }

/-- The same convolution with another dilation in place of the old one. -/
def withDilation (convolution : Convolution) (dilation : Spatial Int) :
    Except GraphError Convolution := do
  let checked ← Window.checkParameter kind .dilation dilation
  if fits : ∀ axis, dilatedSpan (convolution.window.ksize.along axis) (checked.along axis) ≤
      0xffffffffffffffff then
    return { convolution with dilation := checked, fits }
  else .error (.invalidParameter kind .dilation dilation)

/-- Span of the kernel once dilation is applied. -/
def dilatedAlong (convolution : Convolution) (axis : SpatialAxis) : Extent where
  val := dilatedSpan (convolution.window.ksize.along axis) (convolution.dilation.along axis)
  lo_le := Nat.le_add_left 1 _
  le_hi := convolution.fits axis

def dilatedKsize (convolution : Convolution) : Spatial Extent :=
  ⟨convolution.dilatedAlong .height, convolution.dilatedAlong .width⟩

def convolvedAlong (convolution : Convolution) (name : String) (x : Tensor) (axis : SpatialAxis) :
    Except GraphError Extent :=
  inferAlong name x axis
    ((convolution.window.along axis).convolved (convolution.dilatedAlong axis) axis)

def body (convolution : Convolution) (id : OperatorId) (name : String) : Body Unit := do
  let x ← Body.read "x"
  let w ← Body.read "w"
  let channel ← Body.ofExcept (weightChannels name x w convolution.window.ksize)
  let batch ← Body.ofExcept (x.extent .batch)
  let height ← Body.ofExcept (convolution.convolvedAlong name x .height)
  let width ← Body.ofExcept (convolution.convolvedAlong name x .width)
  Body.publishImage id x { batch, channel, height, width }

end Convolution

end AxisGraph
