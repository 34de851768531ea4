import AxisGraph.Operator.Image
import AxisGraph.Window.Sweep

/-!
Spatial pooling, `y = op(x)`. Batch and channel pass through; height and width become the numbers
of windows that cover the padded input. Axes on which the last window does not end with the padded
input are reported once, height before width.
-/

namespace AxisGraph

inductive PoolingKind where
  | max
  /-- With `divideWithoutPadding`, the divisor counts the elements of the window outside the
  padding. -/
  | average (divideWithoutPadding : Bool)
  deriving DecidableEq

def PoolingKind.name : PoolingKind → String
  | max => "MaxPooling2D"
  | average _ => "AveragePooling2D"

structure Pooling where
  kind : PoolingKind
  window : Window
  deriving DecidableEq

namespace Pooling

def ofParameters (kind : PoolingKind) (ksize stride padding : Spatial Int) :
    Except GraphError Pooling := do
  let window ← Window.ofParameters kind.name ksize stride padding
  return { kind, window }

def max (ksize stride padding : Spatial Int) : Except GraphError Pooling :=
  ofParameters .max ksize stride padding

def average (ksize stride padding : Spatial Int) (divideWithoutPadding : Bool) :
    Except GraphError Pooling :=
  ofParameters (.average divideWithoutPadding) ksize stride padding

def slots : List String := ["x"]

def pooledAlong (pooling : Pooling) (name : String) (x : Tensor) (axis : SpatialAxis) :
    Except GraphError Sweep.Pooled :=
  inferAlong name x axis ((pooling.window.along axis).pooled axis)

/-- Report the axes whose edge is ignored, if there are any. -/
def reportEdges (id : OperatorId) (pooled : Spatial Sweep.Pooled) : Body Unit :=
  let ignored := SpatialAxis.all.filter fun axis => (pooled.along axis).edgeIgnored
  match ignored.map SpatialAxis.toAxis with
  | [] => .finish (.ok ())
  | axes => .report (.edgeIgnored id axes) (.finish (.ok ()))

def body (pooling : Pooling) (id : OperatorId) (name : String) : Body Unit := do
  let x ← Body.read "x"
  let batch ← Body.ofExcept (x.extent .batch)
  let channel ← Body.ofExcept (x.extent .channel)
  let height ← Body.ofExcept (pooling.pooledAlong name x .height)
  let width ← Body.ofExcept (pooling.pooledAlong name x .width)
  reportEdges id ⟨height, width⟩
  Body.publishImage id x { batch, channel, height := height.extent, width := width.extent }

end Pooling

end AxisGraph
