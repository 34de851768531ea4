import AxisGraph.Handle
import AxisGraph.Layout.Basic
import AxisGraph.Spatial
import AxisGraph.Text.Quoted
import AxisGraph.Text.Sequence

/-!
The causes for which a construction, an inference or a call on a graph is refused, and their
wording.
-/

namespace AxisGraph

open Text

/-- A parameter of a windowed operator. -/
inductive WindowParameter where
  | ksize
  | stride
  | padding
  | dilation
  deriving DecidableEq

instance : ToString WindowParameter where
  toString
    | .ksize => "ksize"
    | .stride => "stride"
    | .padding => "padding"
    | .dilation => "dilation"

/-- Why no output shape can be inferred from the inputs. -/
inductive ShapeIssue where
  | kernelTooLarge (kernel padded : Int) (axis : SpatialAxis)
  | dilatedKernelTooLarge (kernel padded : Int) (axis : SpatialAxis)
  | extentTooLarge (extent : Int) (axis : SpatialAxis)
  | extentNotPositive (extent : Int) (axis : SpatialAxis)
  | overflow (axis : SpatialAxis)
  | weightLayout (layout : Layout)
  | weightKernel (kernel : Spatial Extent) (ksize : Spatial Size)
  | channels (input weight : Extent)
  | refused (reason : String)
  deriving DecidableEq

def ShapeIssue.message : ShapeIssue → String
  | .kernelTooLarge kernel padded axis =>
    s!"kernel {kernel} is larger than padded input {padded} along {axis}"
  | .dilatedKernelTooLarge kernel padded axis =>
    s!"dilated kernel {kernel} is larger than padded input {padded} along {axis}"
  | .extentTooLarge extent axis => s!"inferred extent {extent} along {axis} is too large"
  | .extentNotPositive extent axis => s!"inferred extent {extent} along {axis} is not positive"
  | .overflow axis => s!"window arithmetic along {axis} overflows"
  | .weightLayout layout => s!"weight order {layout} must be a permutation of {Layout.nhwc}"
  | .weightKernel kernel ksize => s!"weight kernel {kernel} does not match ksize {ksize}"
  | .channels input weight => s!"input has {input} channels but weight expects {weight}"
  | .refused reason => reason

/-- Why a construction or a call is refused. Operators are named by their name in the graph,
except in `invalidParameter`, where no operator exists yet and the kind stands in its place. -/
inductive GraphError where
  | repeatedAxis (axes : List Axis)
  | rankMismatch (shape : List Word) (layout : Layout)
  | zeroExtent (shape : List Word)
  | invalidParameter (kind : String) (parameter : WindowParameter) (value : Spatial Int)
  | slotTaken (operator slot : String)
  | slotNotSupported (operator slot : String)
  | missingInput (operator slot : String)
  | operatorFrozen (operator : String)
  | axisNotFound (axis : Axis) (layout : Layout)
  | axesDiffer (source target : Layout)
  | incompatibleShape (operator : String) (issue : ShapeIssue)
  | unknownVariable (id : VariableId)
  | unknownOperator (id : OperatorId)
  deriving DecidableEq

namespace GraphError

def shapeText (shape : List Word) : String := bracketed (shape.map toString)

def message : GraphError → String
  | repeatedAxis axes =>
    "Order " ++ bracketed (axes.map toString) ++ " contains a repeated axis"
  | rankMismatch shape layout =>
    "Shape " ++ shapeText shape ++ s!" does not match order {layout} of rank {layout.rank}"
  | zeroExtent shape => "Shape " ++ shapeText shape ++ " contains a zero extent"
  | invalidParameter kind parameter value =>
    s!"Operator {kind} received invalid {parameter} {value}"
  | slotTaken operator slot =>
    s!"Operator {operator} already has an input bound to slot " ++ quoted slot
  | slotNotSupported operator slot => s!"Operator {operator} has no slot named " ++ quoted slot
  | missingInput operator slot =>
    s!"Operator {operator} was executed without an input for slot " ++ quoted slot
  | operatorFrozen operator => s!"Operator {operator} has already been executed"
  | axisNotFound axis layout => s!"Axis {axis} is not present in order {layout}"
  | axesDiffer source target => s!"Cannot change order {source} to {target}: axis sets differ"
  | incompatibleShape operator issue =>
    s!"Operator {operator} cannot infer output shape: " ++ issue.message
  | unknownVariable id => s!"Variable handle {id} does not belong to this graph"
  | unknownOperator id => s!"Operator handle {id} does not belong to this graph"

end GraphError

end AxisGraph
