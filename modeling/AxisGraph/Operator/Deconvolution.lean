import AxisGraph.Operator.Image
import AxisGraph.Window.Sweep

/-!
Two-dimensional transposed convolution, `y = op(x, w)`, with the same conventions as the
convolution. Each spatial extent grows to `(in - 1) * stride - 2 * padding + ksize`.
-/

namespace AxisGraph

structure Deconvolution where
  window : Window
  deriving DecidableEq

namespace Deconvolution

def kind : String := "Deconvolution2D"

def slots : List String := ["x", "w"]

def ofParameters (ksize stride padding : Spatial Int) : Except GraphError Deconvolution := do
  let window ← Window.ofParameters kind ksize stride padding
  return { window }

def ksize (deconvolution : Deconvolution) : Spatial Size := deconvolution.window.ksize

def expandedAlong (deconvolution : Deconvolution) (name : String) (x : Tensor)
    (axis : SpatialAxis) : Except GraphError Extent :=
  inferAlong name x axis ((deconvolution.window.along axis).expanded axis)

def body (deconvolution : Deconvolution) (id : OperatorId) (name : String) : Body Unit := do
  let x ← Body.read "x"
  let w ← Body.read "w"
  let channel ← Body.ofExcept (weightChannels name x w deconvolution.window.ksize)
  let batch ← Body.ofExcept (x.extent .batch)
  let height ← Body.ofExcept (deconvolution.expandedAlong name x .height)
  let width ← Body.ofExcept (deconvolution.expandedAlong name x .width)
  Body.publishImage id x { batch, channel, height, width }

end Deconvolution

end AxisGraph
