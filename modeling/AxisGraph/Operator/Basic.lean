import AxisGraph.Operator.Convolution
import AxisGraph.Operator.Deconvolution
import AxisGraph.Operator.LogSoftmax
import AxisGraph.Operator.Pooling

/-!
Operators. An operator is known by its kind, its declared input slots, the parameters that later
passes read from it, and a body. The built-in operators are given by their parameters; any other
body makes an operator as well.
-/

namespace AxisGraph

/-- Parameters of an operator, one form for each built-in kind. -/
inductive Parameters where
  | pooling (settings : Pooling)
  | convolution (settings : Convolution)
  | deconvolution (settings : Deconvolution)
  | logSoftmax (settings : LogSoftmax)
  deriving DecidableEq

/-- The sliding window, for the operators that have one. -/
def Parameters.window? : Parameters → Option Window
  | pooling settings => some settings.window
  | convolution settings => some settings.window
  | deconvolution settings => some settings.window
  | logSoftmax _ => none

/-- The body learns the handle and the name of the operator in the graph. -/
structure Operator where
  kind : String
  slots : List String
  parameters : Parameters
  body : OperatorId → String → Body Unit

/-- The built-in operator with these parameters. -/
def Parameters.operator (parameters : Parameters) : Operator :=
  match parameters with
  | pooling settings => ⟨settings.kind.name, Pooling.slots, parameters, settings.body⟩
  | convolution settings => ⟨Convolution.kind, Convolution.slots, parameters, settings.body⟩
  | deconvolution settings => ⟨Deconvolution.kind, Deconvolution.slots, parameters, settings.body⟩
  | logSoftmax settings => ⟨LogSoftmax.kind, LogSoftmax.slots, parameters, settings.body⟩

end AxisGraph
