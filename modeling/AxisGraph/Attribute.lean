import AxisGraph.Axis
import AxisGraph.Handle
import AxisGraph.Text.Sequence

/-!
What an operator leaves about itself while it executes: attributes for later passes, and diagnostics
for findings that do not stop it.
-/

namespace AxisGraph

/-- Metadata of an operator. -/
inductive Attribute where
  /-- The operator acts independently along the axis, so the work may be split along it. -/
  | tensorwise (operator : OperatorId) (axis : Axis)
  deriving DecidableEq

namespace Attribute

def operator : Attribute → OperatorId
  | tensorwise operator _ => operator

def axis : Attribute → Axis
  | tensorwise _ axis => axis

instance : ToString Attribute where
  toString
    | tensorwise _ axis => "Tensorwise(" ++ toString axis ++ ")"

end Attribute

/-- A finding that does not stop an operator. -/
inductive Diagnostic where
  /-- Along the axes, the last window does not end where the padded input ends. -/
  | edgeIgnored (operator : OperatorId) (axes : List Axis)
  deriving DecidableEq

namespace Diagnostic

def operator : Diagnostic → OperatorId
  | edgeIgnored operator _ => operator

def axes : Diagnostic → List Axis
  | edgeIgnored _ axes => axes

instance : ToString Diagnostic where
  toString
    | edgeIgnored _ axes =>
      "edge is ignored along " ++ Text.commaSeparated (axes.map toString) ++
        "; which edge (left / right) differs between backends"

end Diagnostic

end AxisGraph
