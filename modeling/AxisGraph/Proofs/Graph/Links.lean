import AxisGraph.Proofs.Graph.WellFormed
import Mathlib.Logic.ExistsUnique

/-!
The links of a reachable graph as its queries show them. Every stored handle names a variable or an
operator of the graph; producers and output slots point at each other, and the consumers of a
variable are exactly the operators that have it bound, in the order of their placement.
-/

namespace AxisGraph.Graph

namespace WellFormed

variable {graph : Graph}

theorem id_of_getElem? (h : graph.WellFormed) (i : Nat) (node : Node)
    (hget : graph.nodes[i]? = some node) : node.id = graph.operatorId i := by
  have hnode : graph.nodeAt (graph.operatorId i) = .ok node :=
    (nodeAt_eq_ok_iff graph _ node).mpr ⟨rfl, hget⟩
  exact (h.node _ node hnode).id_eq

theorem nodeAt_id (h : graph.WellFormed) (node : Node) (hmem : node ∈ graph.nodes) :
    graph.nodeAt node.id = .ok node := by
  obtain ⟨id, hnode⟩ := (mem_nodes_iff graph node).mp hmem
  rw [(h.node id node hnode).id_eq]
  exact hnode

theorem nodeWellFormed (h : graph.WellFormed) (node : Node) (hmem : node ∈ graph.nodes) :
    graph.NodeWellFormed node.id node :=
  h.node node.id node (h.nodeAt_id node hmem)

theorem pairwise_nodes (h : graph.WellFormed) :
    graph.nodes.Pairwise fun a b => a.id.index < b.id.index := by
  rw [List.pairwise_iff_getElem]
  intro i j hi hj hij
  have hidi := h.id_of_getElem? i graph.nodes[i] (List.getElem?_eq_getElem hi)
  have hidj := h.id_of_getElem? j graph.nodes[j] (List.getElem?_eq_getElem hj)
  rw [hidi, hidj]
  exact hij

theorem operator_of_producer (h : graph.WellFormed) (v : VariableId) (operator : OperatorId)
    (hv : graph.producer v = .ok (some operator)) :
    ∃ node slot, graph.nodeAt operator = .ok node ∧ node.frozen = true ∧
      node.outputs.find? slot = some v := by
  obtain ⟨tensor, hfound⟩ := (producer_eq_ok_iff graph v (some operator)).mp hv
  obtain ⟨node, slot, hnode, hslot⟩ := h.produced v tensor operator hfound
  refine ⟨node, slot, hnode, ?_, hslot⟩
  cases hfrozen : node.frozen with
  | true => rfl
  | false => exact absurd hslot ((h.node operator node hnode).no_outputs hfrozen slot v)

theorem producer_issued (h : graph.WellFormed) (v : VariableId) (operator : OperatorId)
    (hv : graph.producer v = .ok (some operator)) :
    operator.graph = graph.id ∧ operator.index < graph.nodes.length := by
  obtain ⟨node, slot, hnode, -⟩ := h.operator_of_producer v operator hv
  exact nodeAt_issued graph operator node hnode

theorem mem_outputs_of_producer (h : graph.WellFormed) (v : VariableId) (operator : OperatorId)
    (node : Node) (hv : graph.producer v = .ok (some operator))
    (hnode : graph.nodeAt operator = .ok node) :
    v ∈ node.outputs.values ∧ node.frozen = true := by
  obtain ⟨other, slot, hother, hfrozen, hslot⟩ := h.operator_of_producer v operator hv
  have heq := nodeAt_unique graph operator other node hother hnode
  subst other
  exact ⟨(NameMap.mem_values_iff node.outputs v).mpr ⟨slot, hslot⟩, hfrozen⟩

theorem producer_of_output (h : graph.WellFormed) (operator : OperatorId) (node : Node)
    (slot : String) (v : VariableId) (hnode : graph.nodeAt operator = .ok node)
    (hslot : node.outputs.find? slot = some v) : graph.producer v = .ok (some operator) :=
  (producer_eq_ok_iff graph v _).mpr ((h.node operator node hnode).published slot v hslot)

theorem producer_iff (h : graph.WellFormed) (v : VariableId) (operator : OperatorId) :
    graph.producer v = .ok (some operator) ↔
      ∃ node, graph.nodeAt operator = .ok node ∧ ∃! slot, node.outputs.find? slot = some v := by
  constructor
  · intro hv
    obtain ⟨node, slot, hnode, -, hslot⟩ := h.operator_of_producer v operator hv
    refine ⟨node, hnode, slot, hslot, ?_⟩
    intro slot' hslot'
    exact (h.node operator node hnode).distinct slot' slot v hslot' hslot
  · intro hv
    obtain ⟨node, hnode, slot, hslot, -⟩ := hv
    exact h.producer_of_output operator node slot v hnode hslot

theorem mem_consumers_iff (h : graph.WellFormed) (v : VariableId) (operator : OperatorId) :
    operator ∈ (graph.nodes.filter fun node => node.inputs.values.contains v).map Node.id ↔
      ∃ node slot, graph.nodeAt operator = .ok node ∧ node.inputs.find? slot = some v := by
  simp only [List.mem_map, List.mem_filter, List.contains_iff_mem, NameMap.mem_values_iff]
  constructor
  · intro hmem
    obtain ⟨node, ⟨hnode, slot, hslot⟩, hid⟩ := hmem
    subst hid
    exact ⟨node, slot, h.nodeAt_id node hnode, hslot⟩
  · intro hbound
    obtain ⟨node, slot, hnode, hslot⟩ := hbound
    refine ⟨node, ⟨(mem_nodes_iff graph node).mpr ⟨operator, hnode⟩, slot, hslot⟩, ?_⟩
    exact (h.node operator node hnode).id_eq

theorem pairwise_consumers (h : graph.WellFormed) (v : VariableId) :
    ((graph.nodes.filter fun node => node.inputs.values.contains v).map Node.id).Pairwise
      fun a b => a.index < b.index := by
  rw [List.pairwise_map]
  exact h.pairwise_nodes.sublist List.filter_sublist

end WellFormed

/-- The arena and its links, as the queries of a graph show them. -/
structure Linked (graph : Graph) : Prop where
  node_id : ∀ (i : Nat) (node : Node), graph.nodes[i]? = some node → node.id = ⟨graph.id, i⟩
  input_issued : ∀ v ∈ graph.inputs, graph.Issued v
  output_issued : ∀ v ∈ graph.outputs, graph.Issued v
  slot_issued : ∀ node ∈ graph.nodes, ∀ v ∈ node.inputs.values ++ node.outputs.values,
    graph.Issued v
  producer_issued : ∀ found ∈ graph.vars, ∀ operator, found.producer = some operator →
    operator.graph = graph.id ∧ operator.index < graph.nodes.length
  inputs_nodup : graph.inputs.Nodup
  input_unproduced : ∀ v ∈ graph.inputs, graph.producer v = .ok none
  outputs_nodup : graph.outputs.Nodup
  producer_iff : ∀ v operator, graph.producer v = .ok (some operator) ↔
    ∃ node, graph.nodeAt operator = .ok node ∧ ∃! slot, node.outputs.find? slot = some v
  output_produced : ∀ node ∈ graph.nodes, ∀ v ∈ node.outputs.values,
    graph.producer v = .ok (some node.id) ∧ node.frozen = true
  idle : ∀ node ∈ graph.nodes, node.frozen = false →
    node.outputs = ∅ ∧ node.attributes = [] ∧ node.diagnostics = []
  bound_declared : ∀ node ∈ graph.nodes, ∀ slot, node.inputs.contains slot = true →
    slot ∈ node.operator.slots
  frozen_complete : ∀ node ∈ graph.nodes, node.frozen = true → ∀ slot ∈ node.operator.slots,
    node.inputs.contains slot = true
  consumers_listed : ∀ v, graph.Issued v → ∃ operators, graph.consumers v = .ok operators ∧
    operators.Pairwise (fun a b => a.index < b.index) ∧
    ∀ operator, operator ∈ operators ↔
      ∃ node slot, graph.nodeAt operator = .ok node ∧ node.inputs.find? slot = some v

/-- In every reachable graph the stored handles, the producers, the output slots and the consumers
agree. -/
theorem linked_of_reachable (graph : Graph) (h : Reachable graph) : graph.Linked := by
  have hwell := h.wellFormed
  exact {
    node_id := hwell.id_of_getElem?
    input_issued := by
      intro v hv
      obtain ⟨tensor, hfound⟩ := hwell.source v hv
      exact ⟨_, hfound⟩
    output_issued := hwell.output_issued
    slot_issued := by
      intro node hmem v hv
      have hnode := hwell.nodeWellFormed node hmem
      rcases List.mem_append.mp hv with hinput | houtput
      · exact hnode.issued_of_mem_inputs v hinput
      · exact hnode.issued_of_mem_outputs v houtput
    producer_issued := by
      intro found hmem operator hproducer
      obtain ⟨i, hget⟩ := List.mem_iff_getElem?.mp hmem
      obtain ⟨tensor, maker⟩ := found
      simp only at hproducer
      subst maker
      have hfound : graph.variableAt (graph.variableId i) = .ok ⟨tensor, some operator⟩ :=
        (variableAt_eq_ok_iff graph _ _).mpr ⟨rfl, hget⟩
      exact hwell.producer_issued _ operator ((producer_eq_ok_iff graph _ _).mpr ⟨tensor, hfound⟩)
    inputs_nodup := hwell.inputs_nodup
    input_unproduced := fun v hv => (producer_eq_ok_iff graph v none).mpr (hwell.source v hv)
    outputs_nodup := hwell.outputs_nodup
    producer_iff := hwell.producer_iff
    output_produced := by
      intro node hmem v hv
      obtain ⟨slot, hslot⟩ := (NameMap.mem_values_iff node.outputs v).mp hv
      have hnode := hwell.nodeAt_id node hmem
      have hproducer := hwell.producer_of_output node.id node slot v hnode hslot
      exact ⟨hproducer, (hwell.mem_outputs_of_producer v node.id node hproducer hnode).2⟩
    idle := fun node hmem => (hwell.nodeWellFormed node hmem).idle
    bound_declared := by
      intro node hmem slot hbound
      obtain ⟨v, hv⟩ := (node.inputs.contains_iff slot).mp hbound
      exact ((hwell.nodeWellFormed node hmem).bound slot v hv).1
    frozen_complete := by
      intro node hmem hfrozen slot hslot
      have hbound := (hwell.nodeWellFormed node hmem).complete hfrozen slot hslot
      exact (node.inputs.contains_iff slot).mpr hbound
    consumers_listed := by
      intro v hissued
      exact ⟨_, consumers_of_issued graph v hissued, hwell.pairwise_consumers v,
        hwell.mem_consumers_iff v⟩ }

theorem linked_crossed : Reachable crossed ∧ crossed.Linked ∧
    crossed.producer ⟨⟨0⟩, 1⟩ = .ok (some ⟨⟨0⟩, 1⟩) ∧
    crossed.consumers ⟨⟨0⟩, 1⟩ = .ok [⟨⟨0⟩, 0⟩] :=
  ⟨reachable_crossed, linked_of_reachable crossed reachable_crossed, rfl, rfl⟩

end AxisGraph.Graph
