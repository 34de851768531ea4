import AxisGraph.Proofs.Graph.Links

/-!
Dependencies between the operators of a graph. Operators can be executed in another order than they
were placed in, so their handles give no direction to the dependencies; the handles of the variables
do. Every output of an operator is younger than its inputs, and along a path of dependencies the
connecting variables only get older.
-/

namespace AxisGraph.Graph

/-- The consumer has a variable bound that the producer has published. -/
def DependsOn (graph : Graph) (consumer producer : OperatorId) : Prop :=
  ∃ node v, graph.nodeAt consumer = .ok node ∧ v ∈ node.inputs.values ∧
    graph.producer v = .ok (some producer)

namespace WellFormed

variable {graph : Graph}

theorem index_lt_of_bound (h : graph.WellFormed) (operator : OperatorId) (node : Node)
    (input output : VariableId) (hnode : graph.nodeAt operator = .ok node)
    (hinput : input ∈ node.inputs.values) (houtput : output ∈ node.outputs.values) :
    input.index < output.index := by
  obtain ⟨slot, hslot⟩ := (NameMap.mem_values_iff node.inputs input).mp hinput
  obtain ⟨slot', hslot'⟩ := (NameMap.mem_values_iff node.outputs output).mp houtput
  exact (h.node operator node hnode).ascending slot slot' input output hslot hslot'

/-- A path of dependencies leaves its first operator through an input that is no older than the
output through which it enters its last one. -/
theorem index_le_of_path (h : graph.WellFormed) (first last : OperatorId)
    (hpath : Relation.TransGen graph.DependsOn first last) :
    ∃ node input output, graph.nodeAt first = .ok node ∧ input ∈ node.inputs.values ∧
      graph.producer output = .ok (some last) ∧ output.index ≤ input.index := by
  induction hpath with
  | single hdepends =>
    obtain ⟨node, v, hnode, hv, hproducer⟩ := hdepends
    exact ⟨node, v, v, hnode, hv, hproducer, Nat.le_refl _⟩
  | tail _ hdepends ih =>
    obtain ⟨node, input, output, hnode, hinput, houtput, hle⟩ := ih
    obtain ⟨middle, v, hmiddle, hv, hproducer⟩ := hdepends
    have hpublished := (h.mem_outputs_of_producer output _ middle houtput hmiddle).1
    have hlt := h.index_lt_of_bound _ middle v output hmiddle hv hpublished
    exact ⟨node, input, v, hnode, hinput, hproducer, by omega⟩

theorem no_cycle (h : graph.WellFormed) (operator : OperatorId) :
    ¬ Relation.TransGen graph.DependsOn operator operator := by
  intro hcycle
  obtain ⟨node, input, output, hnode, hinput, houtput, hle⟩ :=
    h.index_le_of_path operator operator hcycle
  have hpublished := (h.mem_outputs_of_producer output operator node houtput hnode).1
  have hlt := h.index_lt_of_bound operator node input output hnode hinput hpublished
  omega

end WellFormed

/-- In every reachable graph the outputs of an operator are younger than its inputs, and no operator
depends on itself, be it directly or through others. -/
theorem acyclic_of_reachable (graph : Graph) (h : Reachable graph) :
    (∀ operator node, graph.nodeAt operator = .ok node →
      ∀ input ∈ node.inputs.values, ∀ output ∈ node.outputs.values,
        input.index < output.index) ∧
    ∀ operator, ¬ Relation.TransGen graph.DependsOn operator operator := by
  constructor
  · intro operator node hnode input hinput output houtput
    exact h.wellFormed.index_lt_of_bound operator node input output hnode hinput houtput
  · exact h.wellFormed.no_cycle

theorem acyclic_crossed : Reachable crossed ∧ crossed.DependsOn ⟨⟨0⟩, 0⟩ ⟨⟨0⟩, 1⟩ ∧
    ¬ crossed.DependsOn ⟨⟨0⟩, 1⟩ ⟨⟨0⟩, 0⟩ := by
  have hforth : crossed.DependsOn ⟨⟨0⟩, 0⟩ ⟨⟨0⟩, 1⟩ :=
    ⟨_, ⟨⟨0⟩, 1⟩, rfl, List.mem_singleton.mpr rfl, rfl⟩
  refine ⟨reachable_crossed, hforth, ?_⟩
  intro hback
  exact (acyclic_of_reachable crossed reachable_crossed).2 _ (.tail (.single hforth) hback)

end AxisGraph.Graph
