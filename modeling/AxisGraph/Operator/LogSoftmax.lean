import AxisGraph.Operator.Body

/-!
Log-softmax along one axis, `y = op(x)`. The output has the shape and layout of the input, and the
operator acts independently along every other axis.
-/

namespace AxisGraph

structure LogSoftmax where
  axis : Axis
  deriving DecidableEq

namespace LogSoftmax

def kind : String := "LogSoftmax"

def slots : List String := ["x"]

def body (softmax : LogSoftmax) (id : OperatorId) (_name : String) : Body Unit := do
  let x ← Body.read "x"
  let _ ← Body.ofExcept (x.layout.position softmax.axis)
  Body.publish "y" x
  Body.attachAll ((x.layout.axes.filter fun axis => axis != softmax.axis).map (.tensorwise id))

end LogSoftmax

end AxisGraph
