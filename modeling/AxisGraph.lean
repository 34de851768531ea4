import AxisGraph.Graph.PostOrder
import AxisGraph.Graph.Text
import AxisGraph.Operator.Script
import AxisGraph.Proofs.NameMap
import AxisGraph.Proofs.Operator.Recording
import AxisGraph.Workspace
import AxisGraph.Proofs.Graph.Lookup
import AxisGraph.Proofs.Graph.Atomicity
import AxisGraph.Proofs.Graph.Reachable
import AxisGraph.Proofs.Graph.Commit
import AxisGraph.Proofs.Graph.WellFormed
import AxisGraph.Proofs.Graph.Dependency
import AxisGraph.Proofs.Graph.Schedule
import AxisGraph.Proofs.Graph.Frozen
import AxisGraph.Proofs.Graph.Inputs
import AxisGraph.Proofs.Graph.Replay
import AxisGraph.Proofs.Operator.Inference
import AxisGraph.Proofs.Tensor
import AxisGraph.Proofs.Graph.Builtin
import AxisGraph.Proofs.Operator.Rearrangement
import AxisGraph.Proofs.Operator.Splitting
import AxisGraph.Proofs.Graph.Continuity
import AxisGraph.Proofs.Window.Exactness
import AxisGraph.Proofs.Operator.Issues
import AxisGraph.Proofs.Graph.Growth
import AxisGraph.Proofs.Graph.Construction
import AxisGraph.Proofs.Graph.ExecutionOrder
import AxisGraph.Proofs.Access.Operator
import AxisGraph.Proofs.Access.Graph
import AxisGraph.Proofs.Access.Schedule
import AxisGraph.Proofs.Access.Safety
import AxisGraph.Proofs.Graph.Lifecycle
import AxisGraph.Proofs.Workspace.Copies
import AxisGraph.Proofs.Window.Coverage
import AxisGraph.Proofs.Operator.Extents
import AxisGraph.Proofs.Operator.Edges
import AxisGraph.Proofs.Operator.Acceptance
import AxisGraph.Proofs.Operator.Inversion
import AxisGraph.Proofs.Operator.Agreement
import AxisGraph.Proofs.Operator.Effects
import AxisGraph.Proofs.Graph.Trace
import AxisGraph.Proofs.Demand
import AxisGraph.Proofs.Window.Demands
import AxisGraph.Proofs.Operator.Demands
import AxisGraph.Proofs.Operator.Dilation
import AxisGraph.Proofs.Operator.Outcome
import AxisGraph.Proofs.Layout
import AxisGraph.Proofs.Relabelling
import AxisGraph.Proofs.Access.Traversal
import AxisGraph.Proofs.Graph.BindingOrder
import AxisGraph.Proofs.Operator.StoredSpan
import AxisGraph.Proofs.Operator.Uses
import AxisGraph.Proofs.Graph.Uses
import AxisGraph.Proofs.ElementCount
import AxisGraph.Proofs.Operator.Constructors
import AxisGraph.Proofs.Text.Reading
import AxisGraph.Proofs.Text.Tensor
import AxisGraph.Proofs.Text.Transcript
import AxisGraph.Proofs.Graph.Transcript
import AxisGraph.Proofs.Text.Lines
import AxisGraph.Proofs.Graph.Naming
