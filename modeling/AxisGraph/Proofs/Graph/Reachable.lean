import AxisGraph.Proofs.Graph.Atomicity

/-!
Graphs that calls can lead to. The callers choose the calls and their handles freely, so a handle
may stem from a copy of the graph or from nowhere. Induction over the elementary changes of a graph
proves a property of every reachable graph.
-/

namespace AxisGraph.Graph

theorem steps_assemble (graph : Graph) (name : Option String) (operator : Operator)
    (inputs : List (String × VariableId)) :
    Steps graph (graph.assemble name operator inputs).graph := by
  have hadd : Steps graph (graph.addOperator name operator).2 :=
    .single (.addOperator name operator)
  have hbind := hadd.trans (steps_bindInputs _ (graph.operatorId graph.nodes.length) inputs)
  unfold assemble Outcome.andThen
  split
  · exact hbind.trans (steps_execute _ _)
  · exact hbind

theorem steps_apply (graph : Graph) (name : Option String) (operator : Operator)
    (inputs : List (String × VariableId)) :
    Steps graph (graph.apply name operator inputs).graph := by
  cases happly : (graph.apply name operator inputs).answer with
  | ok ids =>
    rw [apply_eq_assemble graph name operator inputs ids happly]
    exact steps_assemble graph name operator inputs
  | error error => rw [apply_graph_of_error graph name operator inputs error happly]

theorem steps_ofChange (graph : Graph) (change : Except GraphError Graph)
    (h : ∀ changed, change = .ok changed → Steps graph changed) :
    Steps graph (ofChange graph change).graph := by
  cases change with
  | error error => exact .refl
  | ok changed => exact h changed rfl

/-- Every call takes a graph through elementary changes, or through none when it fails. -/
theorem steps_perform (graph : Graph) (call : Call) :
    Steps graph (graph.perform call).graph := by
  cases call with
  | addVariable tensor => exact .single (.addVariable tensor)
  | addInput tensor => exact .single (.addInput tensor)
  | addOperator name operator => exact .single (.addOperator name operator)
  | markOutput id =>
    exact steps_ofChange graph _ fun changed h => steps_markOutput graph changed id h
  | bindInput operator slot id =>
    exact steps_ofChange graph _ fun changed h => steps_bindInput graph changed operator slot id h
  | execute operator => exact steps_execute graph operator
  | apply name operator inputs => exact steps_apply graph name operator inputs
  | _ => exact steps_apply graph none _ _

/-- The graphs that calls on a new graph lead to, whether the calls succeed or fail. -/
inductive Reachable : Graph → Prop
  | new (id : GraphId) : Reachable (.new id)
  | perform (graph : Graph) (call : Call) (h : Reachable graph) :
      Reachable (graph.perform call).graph

theorem Reachable.performAll (graph : Graph) (h : Reachable graph) (calls : List Call) :
    Reachable (graph.performAll calls) := by
  induction calls generalizing graph with
  | nil => exact h
  | cons call rest ih => exact ih (graph.perform call).graph (.perform graph call h)

/-- A property of all new graphs that every elementary change keeps holds in every reachable
graph. -/
theorem Reachable.invariant (P : Graph → Prop) (hnew : ∀ id, P (.new id))
    (hstep : ∀ graph changed, P graph → Step graph changed → P changed) (graph : Graph)
    (h : Reachable graph) : P graph := by
  induction h with
  | new id => exact hnew id
  | perform graph call _ ih =>
    have hsteps := steps_perform graph call
    generalize (graph.perform call).graph = changed at hsteps
    induction hsteps with
    | refl => exact ih
    | tail _ step hmid => exact hstep _ _ hmid step

/-- A graph in which the operator that was placed first consumes the output of the second one. -/
def crossed : Graph :=
  let relay := (Parameters.logSoftmax ⟨.batch⟩).operator
  let consumer : OperatorId := ⟨⟨0⟩, 0⟩
  let producer : OperatorId := ⟨⟨0⟩, 1⟩
  fed.performAll [
    .addOperator (some "consumer") relay,
    .addOperator (some "producer") relay,
    .bindInput producer "x" ⟨⟨0⟩, 0⟩,
    .execute producer,
    .bindInput consumer "x" ⟨⟨0⟩, 1⟩,
    .execute consumer,
    .markOutput ⟨⟨0⟩, 2⟩]

theorem reachable_fed : Reachable fed :=
  .perform (.new ⟨0⟩) (.addInput _) (.new ⟨0⟩)

theorem reachable_crossed : Reachable crossed :=
  reachable_fed.performAll fed _

end AxisGraph.Graph
