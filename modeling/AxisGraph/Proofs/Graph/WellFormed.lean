import AxisGraph.Proofs.Graph.Commit
import AxisGraph.Proofs.Graph.Reachable

/-!
The invariant of reachable graphs. It ties the two ends of every link to each other: a variable that
remembers an operator is stored in exactly one output slot there, and a bound or published handle
names a variable of the graph. The inputs of an operator that has outputs are older than these
outputs; this order is what keeps the dependencies free of cycles.
-/

namespace AxisGraph.Graph

/-- What holds of the operator under a handle. -/
structure NodeWellFormed (graph : Graph) (id : OperatorId) (node : Node) : Prop where
  id_eq : node.id = id
  bound : ∀ slot v, node.inputs.find? slot = some v →
    slot ∈ node.operator.slots ∧ graph.Issued v
  complete : node.frozen = true → ∀ slot ∈ node.operator.slots,
    ∃ v, node.inputs.find? slot = some v
  idle : node.frozen = false → node.outputs = ∅ ∧ node.attributes = [] ∧ node.diagnostics = []
  published : ∀ slot v, node.outputs.find? slot = some v →
    ∃ tensor, graph.variableAt v = .ok ⟨tensor, some id⟩
  distinct : ∀ slot slot' v, node.outputs.find? slot = some v →
    node.outputs.find? slot' = some v → slot = slot'
  ascending : ∀ slot slot' input output, node.inputs.find? slot = some input →
    node.outputs.find? slot' = some output → input.index < output.index

structure WellFormed (graph : Graph) : Prop where
  node : ∀ id node, graph.nodeAt id = .ok node → graph.NodeWellFormed id node
  produced : ∀ v tensor id, graph.variableAt v = .ok ⟨tensor, some id⟩ →
    ∃ node slot, graph.nodeAt id = .ok node ∧ node.outputs.find? slot = some v
  inputs_nodup : graph.inputs.Nodup
  outputs_nodup : graph.outputs.Nodup
  source : ∀ v ∈ graph.inputs, ∃ tensor, graph.variableAt v = .ok ⟨tensor, none⟩
  output_issued : ∀ v ∈ graph.outputs, graph.Issued v

/-- Everything known under a variable handle of the first graph is known in the second. -/
def KeepsVariables (graph changed : Graph) : Prop :=
  ∀ v found, graph.variableAt v = .ok found → changed.variableAt v = .ok found

theorem KeepsVariables.issued {graph changed : Graph} (h : graph.KeepsVariables changed)
    (v : VariableId) (hissued : graph.Issued v) : changed.Issued v := by
  obtain ⟨found, hfound⟩ := hissued
  exact ⟨found, h v found hfound⟩

theorem keepsVariables_extend (graph : Graph) (added : List Variable) :
    graph.KeepsVariables (graph.extend added) :=
  fun v found h => (variableAt_extend graph added v found).mpr (Or.inl h)

theorem keepsVariables_commit (graph : Graph) (operator : OperatorId) (recorded : Context) :
    graph.KeepsVariables (graph.commit operator recorded) :=
  fun v found h => (variableAt_commit graph operator recorded v found).mpr (Or.inl h)

namespace NodeWellFormed

variable {graph changed : Graph} {id operator : OperatorId} {node : Node}

theorem mono (h : graph.NodeWellFormed id node) (hkeeps : graph.KeepsVariables changed) :
    changed.NodeWellFormed id node where
  id_eq := h.id_eq
  bound slot v hv := ⟨(h.bound slot v hv).1, hkeeps.issued v (h.bound slot v hv).2⟩
  complete := h.complete
  idle := h.idle
  published slot v hv := by
    obtain ⟨tensor, hfound⟩ := h.published slot v hv
    exact ⟨tensor, hkeeps v _ hfound⟩
  distinct := h.distinct
  ascending := h.ascending

theorem fresh (graph : Graph) (id : OperatorId) (name : String) (operator : Operator) :
    graph.NodeWellFormed id (.fresh id name operator) where
  id_eq := rfl
  bound slot v hv := by cases hv
  complete hfrozen := by cases hfrozen
  idle _ := ⟨rfl, rfl, rfl⟩
  published slot v hv := by cases hv
  distinct slot slot' v hv := by cases hv
  ascending slot slot' input output hinput := by cases hinput

theorem no_outputs (h : graph.NodeWellFormed id node) (hfrozen : node.frozen = false)
    (slot : String) (v : VariableId) : node.outputs.find? slot ≠ some v := by
  rw [(h.idle hfrozen).1, NameMap.find?_empty]
  exact (Option.some_ne_none v).symm

theorem issued_of_mem_inputs (h : graph.NodeWellFormed id node) (v : VariableId)
    (hv : v ∈ node.inputs.values) : graph.Issued v := by
  obtain ⟨slot, hslot⟩ := (NameMap.mem_values_iff node.inputs v).mp hv
  exact (h.bound slot v hslot).2

theorem issued_of_mem_outputs (h : graph.NodeWellFormed id node) (v : VariableId)
    (hv : v ∈ node.outputs.values) : graph.Issued v := by
  obtain ⟨slot, hslot⟩ := (NameMap.mem_values_iff node.outputs v).mp hv
  obtain ⟨tensor, hfound⟩ := h.published slot v hslot
  exact ⟨_, hfound⟩

theorem bind (h : graph.NodeWellFormed operator node) {slot : String} {v : VariableId}
    (hbinding : graph.Binding operator slot v node) :
    graph.NodeWellFormed operator { node with inputs := node.inputs.insert slot v } where
  id_eq := h.id_eq
  bound name w hw := by
    simp only [NameMap.find?_insert] at hw
    split at hw
    · rename_i hname
      cases hw
      exact ⟨hname ▸ hbinding.declared, hbinding.issued⟩
    · exact h.bound name w hw
  complete hfrozen := by
    rw [hbinding.unfrozen] at hfrozen
    cases hfrozen
  idle := h.idle
  published := h.published
  distinct := h.distinct
  ascending name name' input output _ houtput :=
    absurd houtput (h.no_outputs hbinding.unfrozen name' output)

variable {inputs : NameMap Tensor} {recorded : Context}

theorem find?_committed (h : graph.NodeWellFormed operator node)
    (hexecution : graph.Execution operator node inputs recorded) (slot : String)
    (v : VariableId) :
    (node.committed (graph.publications recorded) recorded).outputs.find? slot = some v ↔
      ∃ k tensor, recorded.outputs[k]? = some (slot, tensor) ∧
        v = graph.variableId (graph.vars.length + k) := by
  unfold Node.committed
  rw [(h.idle hexecution.unfrozen).1]
  exact find?_insertAll_publications graph recorded hexecution.slotsDistinct slot v

theorem commit (h : graph.NodeWellFormed operator node)
    (hexecution : graph.Execution operator node inputs recorded) :
    (graph.commit operator recorded).NodeWellFormed operator
      (node.committed (graph.publications recorded) recorded) where
  id_eq := h.id_eq
  bound := (h.mono (keepsVariables_commit graph operator recorded)).bound
  complete _ := hexecution.bound
  idle hfrozen := by cases hfrozen
  published slot v hv := by
    obtain ⟨k, tensor, houtput, hid⟩ := (h.find?_committed hexecution slot v).mp hv
    refine ⟨tensor, (variableAt_commit graph operator recorded v _).mpr (Or.inr ?_)⟩
    exact ⟨k, slot, tensor, houtput, hid, rfl⟩
  distinct slot slot' v hv hv' := by
    obtain ⟨k, tensor, houtput, hid⟩ := (h.find?_committed hexecution slot v).mp hv
    obtain ⟨k', tensor', houtput', hid'⟩ := (h.find?_committed hexecution slot' v).mp hv'
    rw [hid] at hid'
    simp only [variableId, VariableId.mk.injEq, true_and] at hid'
    have hk : k = k' := by omega
    subst k'
    rw [houtput] at houtput'
    exact congrArg Prod.fst (Option.some.inj houtput')
  ascending slot slot' input output hinput houtput := by
    obtain ⟨k, tensor, -, hid⟩ := (h.find?_committed hexecution slot' output).mp houtput
    have hissued := (h.bound slot input hinput).2
    have hlt := ((issued_iff graph input).mp hissued).2
    rw [hid]
    simp only [variableId]
    omega

end NodeWellFormed

theorem wellFormed_new (id : GraphId) : (Graph.new id).WellFormed where
  node operator node hnode := by
    have hlt := (nodeAt_issued (.new id) operator node hnode).2
    cases hlt
  produced v tensor operator hv := by
    have hlt := ((issued_iff (.new id) v).mp ⟨_, hv⟩).2
    cases hlt
  inputs_nodup := .nil
  outputs_nodup := .nil
  source v hv := by cases hv
  output_issued v hv := by cases hv

namespace WellFormed

variable {graph : Graph}

theorem addVariable (h : graph.WellFormed) (tensor : Tensor) :
    (graph.addVariable tensor).2.WellFormed where
  node id node hnode := (h.node id node hnode).mono (keepsVariables_extend graph _)
  produced v found id hv := by
    rcases (variableAt_extend graph _ v _).mp hv with hold | ⟨k, -, hget⟩
    · exact h.produced v found id hold
    · rw [List.getElem?_singleton] at hget
      split at hget <;> cases hget
  inputs_nodup := h.inputs_nodup
  outputs_nodup := h.outputs_nodup
  source v hv := by
    obtain ⟨found, hfound⟩ := h.source v hv
    exact ⟨found, keepsVariables_extend graph _ v _ hfound⟩
  output_issued v hv := (keepsVariables_extend graph _).issued v (h.output_issued v hv)

theorem addInput (h : graph.WellFormed) (tensor : Tensor) :
    (graph.addInput tensor).2.WellFormed where
  node id node hnode := (h.node id node hnode).mono (keepsVariables_extend graph _)
  produced := (h.addVariable tensor).produced
  inputs_nodup := by
    -- The new handle names nothing yet, whereas all inputs name variables.
    have hnew : graph.variableId graph.vars.length ∉ graph.inputs := by
      intro hmem
      obtain ⟨found, hfound⟩ := h.source _ hmem
      exact not_issued_variableId graph 0 ⟨_, hfound⟩
    show (graph.inputs ++ [graph.variableId graph.vars.length]).Nodup
    rw [← List.concat_eq_append]
    exact h.inputs_nodup.concat hnew
  outputs_nodup := h.outputs_nodup
  source v hv := by
    rcases List.mem_append.mp hv with hold | hnew
    · exact (h.addVariable tensor).source v hold
    · refine ⟨tensor, (variableAt_extend graph _ v _).mpr (Or.inr ⟨0, ?_, rfl⟩)⟩
      exact List.mem_singleton.mp hnew
  output_issued := (h.addVariable tensor).output_issued

theorem markOutput (h : graph.WellFormed) (id : VariableId) (hissued : graph.Issued id)
    (hnew : id ∉ graph.outputs) :
    ({ graph with outputs := graph.outputs ++ [id] } : Graph).WellFormed where
  node operator node hnode := (h.node operator node hnode).mono fun _ _ hv => hv
  produced := h.produced
  inputs_nodup := h.inputs_nodup
  outputs_nodup := by
    rw [← List.concat_eq_append]
    exact h.outputs_nodup.concat hnew
  source := h.source
  output_issued v hv := by
    rcases List.mem_append.mp hv with hold | hlast
    · exact h.output_issued v hold
    · rw [List.mem_singleton.mp hlast]
      exact hissued

theorem addOperator (h : graph.WellFormed) (name : Option String) (operator : Operator) :
    (graph.addOperator name operator).2.WellFormed where
  node id node hnode := by
    rcases (nodeAt_concat graph _ id node).mp hnode with hold | ⟨hid, hnew⟩
    · exact (h.node id node hold).mono fun _ _ hv => hv
    · subst hid
      subst hnew
      exact .fresh _ _ _ operator
  produced v tensor id hv := by
    obtain ⟨node, slot, hnode, hslot⟩ := h.produced v tensor id hv
    exact ⟨node, slot, (nodeAt_concat graph _ id node).mpr (Or.inl hnode), hslot⟩
  inputs_nodup := h.inputs_nodup
  outputs_nodup := h.outputs_nodup
  source := h.source
  output_issued := h.output_issued

theorem bind (h : graph.WellFormed) (operator : OperatorId) (slot : String) (v : VariableId)
    (node : Node) (hbinding : graph.Binding operator slot v node) :
    (graph.bound operator slot v).WellFormed where
  node id changed hchanged := by
    obtain ⟨old, hold, rfl⟩ := (nodeAt_bound graph operator slot v hbinding.graph_eq id changed).mp
      hchanged
    by_cases hid : id = operator
    · subst id
      have hnode := nodeAt_unique graph operator old node hold hbinding.node_eq
      subst old
      rw [if_pos rfl]
      exact ((h.node operator node hold).bind hbinding).mono fun _ _ hv => hv
    · rw [if_neg hid]
      exact (h.node id old hold).mono fun _ _ hv => hv
  produced w tensor id hw := by
    obtain ⟨old, name, hold, hname⟩ := h.produced w tensor id hw
    refine ⟨_, name, (nodeAt_bound graph operator slot v hbinding.graph_eq id _).mpr
      ⟨old, hold, rfl⟩, ?_⟩
    split
    · exact hname
    · exact hname
  inputs_nodup := h.inputs_nodup
  outputs_nodup := h.outputs_nodup
  source := h.source
  output_issued := h.output_issued

theorem commit (h : graph.WellFormed) (operator : OperatorId) (node : Node)
    (inputs : NameMap Tensor) (recorded : Context)
    (hexecution : graph.Execution operator node inputs recorded) :
    (graph.commit operator recorded).WellFormed where
  node id changed hchanged := by
    obtain ⟨old, hold, rfl⟩ := (nodeAt_commit graph operator recorded hexecution.graph_eq id
      changed).mp hchanged
    by_cases hid : id = operator
    · subst id
      have hnode := nodeAt_unique graph operator old node hold hexecution.node_eq
      subst old
      rw [if_pos rfl]
      exact (h.node operator node hold).commit hexecution
    · rw [if_neg hid]
      exact (h.node id old hold).mono (keepsVariables_commit graph operator recorded)
  produced v tensor id hv := by
    rcases (variableAt_commit graph operator recorded v _).mp hv with
      hold | ⟨k, slot, found, houtput, hid, hfound⟩
    · obtain ⟨old, slot, hnode, hslot⟩ := h.produced v tensor id hold
      have hne : id ≠ operator := by
        intro heq
        subst id
        have heq := nodeAt_unique graph operator old node hnode hexecution.node_eq
        subst old
        exact (h.node operator node hnode).no_outputs hexecution.unfrozen slot v hslot
      refine ⟨old, slot, ?_, hslot⟩
      exact (nodeAt_commit graph operator recorded hexecution.graph_eq id old).mpr
        ⟨old, hnode, by rw [if_neg hne]⟩
    · simp only [Variable.mk.injEq, Option.some.injEq] at hfound
      obtain ⟨rfl, rfl⟩ := hfound
      have hnode := h.node id node hexecution.node_eq
      refine ⟨node.committed (graph.publications recorded) recorded, slot, ?_, ?_⟩
      · exact (nodeAt_commit graph id recorded hexecution.graph_eq id _).mpr
          ⟨node, hexecution.node_eq, by rw [if_pos rfl]⟩
      · exact (hnode.find?_committed hexecution slot v).mpr ⟨k, tensor, houtput, hid⟩
  inputs_nodup := h.inputs_nodup
  outputs_nodup := h.outputs_nodup
  source v hv := by
    obtain ⟨tensor, hfound⟩ := h.source v hv
    exact ⟨tensor, keepsVariables_commit graph operator recorded v _ hfound⟩
  output_issued v hv :=
    (keepsVariables_commit graph operator recorded).issued v (h.output_issued v hv)

end WellFormed

theorem step_preserves (graph changed : Graph) (h : graph.WellFormed)
    (hstep : Step graph changed) : changed.WellFormed := by
  cases hstep with
  | addVariable tensor => exact h.addVariable tensor
  | addInput tensor => exact h.addInput tensor
  | markOutput id hissued hnew => exact h.markOutput id hissued hnew
  | addOperator name operator => exact h.addOperator name operator
  | bind operator slot v node hbinding => exact h.bind operator slot v node hbinding
  | commit operator node inputs recorded hexecution =>
    exact h.commit operator node inputs recorded hexecution

theorem WellFormed.steps {graph changed : Graph} (h : graph.WellFormed)
    (hsteps : Steps graph changed) : changed.WellFormed := by
  induction hsteps with
  | refl => exact h
  | tail _ step ih => exact step_preserves _ _ ih step

theorem Reachable.wellFormed (graph : Graph) (h : Reachable graph) : graph.WellFormed :=
  h.invariant WellFormed wellFormed_new step_preserves

end AxisGraph.Graph
