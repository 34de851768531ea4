import AxisGraph.Graph.Basic

/-!
The operators that the marked outputs need, dependencies first. A stack of tasks drives the walk: an
operator is entered once, its producers are put above it, and it is emitted when they are done.
-/

namespace AxisGraph.Graph

/-- The operators that produced these variables. -/
def producers (graph : Graph) (ids : List VariableId) : List OperatorId :=
  ids.filterMap fun id => (graph.vars[id.index]?).bind Variable.producer

/-- The operators that produced the inputs of an operator, in the order of its slots. -/
def dependencies (graph : Graph) (operator : OperatorId) : List OperatorId :=
  match graph.nodes[operator.index]? with
  | some node => graph.producers node.inputs.values
  | none => []

inductive Task where
  | enter (operator : OperatorId)
  | emit (operator : OperatorId)
  deriving DecidableEq

/-- Work off a stack of tasks. `pending` holds the indices of the operators not entered yet. -/
def runTasks (graph : Graph) (pending : List Nat) : List Task → List OperatorId
  | [] => []
  | .emit operator :: rest => operator :: graph.runTasks pending rest
  | .enter operator :: rest =>
    if operator.index ∈ pending then
      let left := pending.erase operator.index
      let waiting := (graph.dependencies operator).filter fun producer => producer.index ∈ left
      graph.runTasks left (waiting.map .enter ++ .emit operator :: rest)
    else graph.runTasks pending rest
termination_by tasks => (pending.length, tasks.length)
decreasing_by
  · exact Prod.Lex.right _ (by simp)
  · rename_i h
    have hlength := List.length_erase_of_mem h
    have hpos := List.length_pos_of_mem h
    exact Prod.Lex.left _ _ (by omega)
  · exact Prod.Lex.right _ (by simp)

/-- Operators needed for the graph's outputs, dependencies first. -/
def schedule (graph : Graph) : List OperatorId :=
  graph.runTasks (List.range graph.nodes.length) ((graph.producers graph.outputs).map .enter)

end AxisGraph.Graph
