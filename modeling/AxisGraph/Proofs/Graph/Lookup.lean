import AxisGraph.Graph.Basic
import AxisGraph.Proofs.NameMap

/-!
What a graph knows under a handle, and how it changes. The lookups of variables and of operators
are the view of a graph through which all later statements speak; each way of changing a graph is
described here by its effect on these lookups.
-/

namespace AxisGraph.Graph

theorem variableAt_eq_ok_iff (graph : Graph) (id : VariableId) (found : Variable) :
    graph.variableAt id = .ok found ↔
      id.graph = graph.id ∧ graph.vars[id.index]? = some found := by
  unfold variableAt
  split
  · rename_i hgraph
    cases hfound : graph.vars[id.index]? with
    | none => simp [hgraph]
    | some other => simp [hgraph]
  · rename_i hgraph
    simp [hgraph]

theorem variableAt_error (graph : Graph) (id : VariableId) (error : GraphError)
    (h : graph.variableAt id = .error error) : error = .unknownVariable id := by
  unfold variableAt at h
  split at h
  · split at h
    · cases h
    · exact (Except.error.inj h).symm
  · exact (Except.error.inj h).symm

theorem nodeAt_eq_ok_iff (graph : Graph) (id : OperatorId) (node : Node) :
    graph.nodeAt id = .ok node ↔ id.graph = graph.id ∧ graph.nodes[id.index]? = some node := by
  unfold nodeAt
  split
  · rename_i hgraph
    cases hnode : graph.nodes[id.index]? with
    | none => simp [hgraph]
    | some other => simp [hgraph]
  · rename_i hgraph
    simp [hgraph]

theorem nodeAt_error (graph : Graph) (id : OperatorId) (error : GraphError)
    (h : graph.nodeAt id = .error error) : error = .unknownOperator id := by
  unfold nodeAt at h
  split at h
  · split at h
    · cases h
    · exact (Except.error.inj h).symm
  · exact (Except.error.inj h).symm

/-- Graphs that know the same operator under a handle answer alike when they know none. -/
theorem nodeAt_congr (graph other : Graph) (id : OperatorId)
    (h : ∀ node, other.nodeAt id = .ok node ↔ graph.nodeAt id = .ok node) :
    other.nodeAt id = graph.nodeAt id := by
  cases hnode : graph.nodeAt id with
  | ok node => exact (h node).mpr hnode
  | error error =>
    cases hother : other.nodeAt id with
    | ok node =>
      rw [(h node).mp hother] at hnode
      cases hnode
    | error cause => rw [graph.nodeAt_error id error hnode, other.nodeAt_error id cause hother]

theorem nodeAt_unique (graph : Graph) (id : OperatorId) (node other : Node)
    (hnode : graph.nodeAt id = .ok node) (hother : graph.nodeAt id = .ok other) : node = other :=
  Except.ok.inj (hnode.symm.trans hother)

/-- The handle names a variable of the graph. -/
def Issued (graph : Graph) (id : VariableId) : Prop := ∃ found, graph.variableAt id = .ok found

theorem issued_iff (graph : Graph) (id : VariableId) :
    graph.Issued id ↔ id.graph = graph.id ∧ id.index < graph.vars.length := by
  constructor
  · intro h
    obtain ⟨found, hfound⟩ := h
    obtain ⟨hgraph, hget⟩ := (variableAt_eq_ok_iff graph id found).mp hfound
    obtain ⟨hlt, -⟩ := List.getElem?_eq_some_iff.mp hget
    exact ⟨hgraph, hlt⟩
  · intro h
    obtain ⟨hgraph, hlt⟩ := h
    refine ⟨graph.vars[id.index], (variableAt_eq_ok_iff graph id _).mpr ⟨hgraph, ?_⟩⟩
    exact List.getElem?_eq_getElem hlt

theorem not_issued_variableId (graph : Graph) (k : Nat) :
    ¬ graph.Issued (graph.variableId (graph.vars.length + k)) := by
  rw [issued_iff]
  simp only [variableId]
  omega

theorem nodeAt_issued (graph : Graph) (id : OperatorId) (node : Node)
    (h : graph.nodeAt id = .ok node) : id.graph = graph.id ∧ id.index < graph.nodes.length := by
  obtain ⟨hgraph, hget⟩ := (nodeAt_eq_ok_iff graph id node).mp h
  obtain ⟨hlt, -⟩ := List.getElem?_eq_some_iff.mp hget
  exact ⟨hgraph, hlt⟩

theorem mem_nodes_iff (graph : Graph) (node : Node) :
    node ∈ graph.nodes ↔ ∃ id, graph.nodeAt id = .ok node := by
  rw [List.mem_iff_getElem?]
  constructor
  · intro h
    obtain ⟨i, hget⟩ := h
    exact ⟨graph.operatorId i, (nodeAt_eq_ok_iff graph _ node).mpr ⟨rfl, hget⟩⟩
  · intro h
    obtain ⟨id, hnode⟩ := h
    exact ⟨id.index, ((nodeAt_eq_ok_iff graph id node).mp hnode).2⟩

theorem producer_eq_ok_iff (graph : Graph) (id : VariableId) (producer : Option OperatorId) :
    graph.producer id = .ok producer ↔
      ∃ tensor, graph.variableAt id = .ok ⟨tensor, producer⟩ := by
  unfold Graph.producer
  cases hfound : graph.variableAt id with
  | error error => simp [bind, Except.bind]
  | ok found =>
    obtain ⟨tensor, maker⟩ := found
    simp [bind, Except.bind, pure, Except.pure]

theorem consumers_of_issued (graph : Graph) (id : VariableId) (h : graph.Issued id) :
    graph.consumers id =
      .ok ((graph.nodes.filter fun node => node.inputs.values.contains id).map Node.id) := by
  obtain ⟨found, hfound⟩ := h
  simp [consumers, hfound, bind, Except.bind, pure, Except.pure]

/-! Changes of the lists of variables and operators. -/

private theorem getElem?_append_eq_some_iff {α : Type} (old added : List α) (i : Nat) (a : α) :
    (old ++ added)[i]? = some a ↔
      old[i]? = some a ∨ ∃ k, i = old.length + k ∧ added[k]? = some a := by
  by_cases hlt : i < old.length
  · rw [List.getElem?_append_left hlt]
    refine ⟨Or.inl, ?_⟩
    intro h
    rcases h with hold | ⟨k, hi, -⟩
    · exact hold
    · omega
  · have hnone : old[i]? = none := List.getElem?_eq_none (by omega)
    rw [List.getElem?_append_right (by omega), hnone]
    constructor
    · intro hget
      exact Or.inr ⟨i - old.length, by omega, hget⟩
    · intro h
      rcases h with hold | ⟨k, hi, hget⟩
      · cases hold
      · simpa [hi] using hget

/-- The graph with more variables. -/
def extend (graph : Graph) (added : List Variable) : Graph :=
  { graph with vars := graph.vars ++ added }

theorem variableAt_extend (graph : Graph) (added : List Variable) (id : VariableId)
    (found : Variable) :
    (graph.extend added).variableAt id = .ok found ↔
      graph.variableAt id = .ok found ∨
        ∃ k, id = graph.variableId (graph.vars.length + k) ∧ added[k]? = some found := by
  obtain ⟨owner, index⟩ := id
  simp only [variableAt_eq_ok_iff, extend, getElem?_append_eq_some_iff, variableId,
    VariableId.mk.injEq]
  constructor
  · intro h
    obtain ⟨hgraph, hold | ⟨k, hindex, hget⟩⟩ := h
    · exact Or.inl ⟨hgraph, hold⟩
    · exact Or.inr ⟨k, ⟨hgraph, hindex⟩, hget⟩
  · intro h
    rcases h with ⟨hgraph, hold⟩ | ⟨k, ⟨hgraph, hindex⟩, hget⟩
    · exact ⟨hgraph, Or.inl hold⟩
    · exact ⟨hgraph, Or.inr ⟨k, hindex, hget⟩⟩

/-- The graph with one more operator. -/
def concat (graph : Graph) (node : Node) : Graph := { graph with nodes := graph.nodes ++ [node] }

theorem nodeAt_concat (graph : Graph) (added : Node) (id : OperatorId) (node : Node) :
    (graph.concat added).nodeAt id = .ok node ↔
      graph.nodeAt id = .ok node ∨
        id = graph.operatorId graph.nodes.length ∧ node = added := by
  obtain ⟨owner, index⟩ := id
  simp only [nodeAt_eq_ok_iff, concat, getElem?_append_eq_some_iff, operatorId,
    OperatorId.mk.injEq, List.getElem?_singleton]
  constructor
  · intro h
    obtain ⟨hgraph, hold | ⟨k, hindex, hget⟩⟩ := h
    · exact Or.inl ⟨hgraph, hold⟩
    · split at hget
      · exact Or.inr ⟨⟨hgraph, by omega⟩, (Option.some.inj hget).symm⟩
      · cases hget
  · intro h
    rcases h with ⟨hgraph, hold⟩ | ⟨⟨hgraph, hindex⟩, hnode⟩
    · exact ⟨hgraph, Or.inl hold⟩
    · exact ⟨hgraph, Or.inr ⟨0, hindex, by simp [hnode]⟩⟩

theorem operatorId_eq_of_index_eq (a b : OperatorId) (hgraph : a.graph = b.graph)
    (hindex : a.index = b.index) : a = b := by
  cases a
  cases b
  simp_all

theorem mem_erase_index (a b : OperatorId) (indices : List Nat) (hgraph : a.graph = b.graph)
    (hne : a ≠ b) (hmem : a.index ∈ indices) : a.index ∈ indices.erase b.index := by
  refine (List.mem_erase_of_ne ?_).mpr hmem
  intro hindex
  exact hne (operatorId_eq_of_index_eq a b hgraph hindex)

/-- Modifying an operator of the graph changes what its own handle names, and nothing else. -/
theorem nodeAt_modifyNode (graph : Graph) (operator : OperatorId) (f : Node → Node)
    (hoperator : operator.graph = graph.id) (id : OperatorId) (node : Node) :
    (graph.modifyNode operator f).nodeAt id = .ok node ↔
      ∃ old, graph.nodeAt id = .ok old ∧ node = if id = operator then f old else old := by
  simp only [nodeAt_eq_ok_iff, modifyNode, List.getElem?_modify]
  constructor
  · intro h
    obtain ⟨hgraph, hget⟩ := h
    obtain ⟨old, hold, hnode⟩ := Option.map_eq_some_iff.mp hget
    refine ⟨old, ⟨hgraph, hold⟩, ?_⟩
    by_cases hid : id = operator
    · subst operator
      simpa using hnode.symm
    · have hindex : operator.index ≠ id.index := fun heq =>
        hid (operatorId_eq_of_index_eq id operator (hgraph.trans hoperator.symm) heq.symm)
      simpa [hid, hindex] using hnode.symm
  · intro h
    obtain ⟨old, ⟨hgraph, hold⟩, rfl⟩ := h
    refine ⟨hgraph, Option.map_eq_some_iff.mpr ⟨old, hold, ?_⟩⟩
    by_cases hid : id = operator
    · subst operator
      simp
    · have hindex : operator.index ≠ id.index := fun heq =>
        hid (operatorId_eq_of_index_eq id operator (hgraph.trans hoperator.symm) heq.symm)
      simp [hid, hindex]

@[simp]
theorem variableAt_modifyNode (graph : Graph) (operator : OperatorId) (f : Node → Node)
    (id : VariableId) : (graph.modifyNode operator f).variableAt id = graph.variableAt id :=
  rfl

end AxisGraph.Graph
