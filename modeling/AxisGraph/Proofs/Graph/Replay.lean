import AxisGraph.Proofs.Graph.Frozen
import AxisGraph.Proofs.Graph.Inputs

/-!
A frozen operator can be replayed. Its inputs were fixed when it was executed and the variables
bound to them never change, so running its body again on them leaves the record that the graph has
stored, however the graph has grown since.
-/

namespace AxisGraph.Graph

/-- The body of the operator succeeds on the tensors bound to its slots and leaves this record. The
graph holds the record: the `k`-th output is the `k`-th variable from `first` on and is stored under
its slot, no other slot has an output, and the attributes and diagnostics are the recorded ones. -/
structure Reproduces (graph : Graph) (operator : OperatorId) (node : Node) (inputs : NameMap Tensor)
    (recorded : Context) (first : Nat) : Prop where
  inputs_eq : graph.boundTensors node node.operator.slots ∅ = .ok inputs
  run_eq : (node.operator.body node.id node.name).run (.start node.id node.name inputs) =
    (.ok (), recorded)
  stored_iff : ∀ slot v, node.outputs.find? slot = some v ↔
    ∃ k tensor, recorded.outputs[k]? = some (slot, tensor) ∧ v = graph.variableId (first + k)
  published : ∀ k slot tensor, recorded.outputs[k]? = some (slot, tensor) →
    graph.variableAt (graph.variableId (first + k)) = .ok ⟨tensor, some operator⟩
  attributes_eq : node.attributes = recorded.attributes
  diagnostics_eq : node.diagnostics = recorded.diagnostics

namespace Reproduces

variable {graph : Graph} {operator : OperatorId} {node : Node} {inputs : NameMap Tensor}
  {recorded : Context}

theorem mono {later : Graph} {first : Nat} (hextends : graph.Extends later)
    (h : graph.Reproduces operator node inputs recorded first) :
    later.Reproduces operator node inputs recorded first := by
  have hid : ∀ k, later.variableId k = graph.variableId k := by
    intro k
    rw [variableId, hextends.id_eq, variableId]
  exact {
    inputs_eq := boundTensors_mono graph later node _ ∅ inputs hextends.vars h.inputs_eq
    run_eq := h.run_eq
    stored_iff := by
      intro slot v
      simp only [h.stored_iff slot v, hid]
    published := by
      intro k slot tensor houtput
      rw [hid]
      exact hextends.vars _ _ (h.published k slot tensor houtput)
    attributes_eq := h.attributes_eq
    diagnostics_eq := h.diagnostics_eq }

theorem commit (hwell : graph.WellFormed)
    (hexecution : graph.Execution operator node inputs recorded) :
    (graph.commit operator recorded).Reproduces operator
      (node.committed (graph.publications recorded) recorded) inputs recorded
      graph.vars.length where
  inputs_eq := by
    rw [boundTensors_committed]
    exact boundTensors_mono graph _ node _ ∅ inputs
      (keepsVariables_commit graph operator recorded) hexecution.inputs_eq
  run_eq := hexecution.run_eq
  stored_iff := (hwell.node operator node hexecution.node_eq).find?_committed hexecution
  published k slot tensor houtput :=
    (variableAt_commit graph operator recorded _ _).mpr
      (Or.inr ⟨k, slot, tensor, houtput, rfl, rfl⟩)
  attributes_eq := rfl
  diagnostics_eq := rfl

end Reproduces

/-- In every reachable graph, running a frozen operator again on the variables bound to its slots
succeeds and records what the graph holds. -/
theorem reproducible_of_reachable (graph : Graph) (h : Reachable graph) (operator : OperatorId)
    (node : Node) (hnode : graph.nodeAt operator = .ok node) (hfrozen : node.frozen = true) :
    ∃ inputs recorded first, graph.Reproduces operator node inputs recorded first ∧
      ∀ slot tensor, inputs.find? slot = some tensor ↔
        ∃ v producer, node.inputs.find? slot = some v ∧
          graph.variableAt v = .ok ⟨tensor, producer⟩ := by
  have hreproduces : ∃ inputs recorded first,
      graph.Reproduces operator node inputs recorded first := by
    refine h.frozen (fun graph operator node => ∃ inputs recorded first,
      graph.Reproduces operator node inputs recorded first) ?_ ?_ graph operator node hnode hfrozen
    · intro graph operator node inputs recorded hwell hexecution
      exact ⟨inputs, recorded, graph.vars.length, .commit hwell hexecution⟩
    · intro graph later operator node hextends hreproduces
      obtain ⟨inputs, recorded, first, hreproduces⟩ := hreproduces
      exact ⟨inputs, recorded, first, hreproduces.mono hextends⟩
  obtain ⟨inputs, recorded, first, hreproduces⟩ := hreproduces
  refine ⟨inputs, recorded, first, hreproduces, ?_⟩
  exact h.wellFormed.find?_inputs operator node inputs hnode hreproduces.inputs_eq

/-- An operator that publishes its input twice, against the order of the slots. -/
def forking : Operator where
  kind := "Forking"
  slots := ["x"]
  parameters := .logSoftmax ⟨.batch⟩
  body := fun id _ => do
    let x ← Body.read "x"
    Body.publish "right" x
    Body.publish "left" x
    Body.attachAll [.tensorwise id .batch]
    .report (.edgeIgnored id [.height]) (.finish (.ok ()))

/-- A graph that has grown since its first operator was executed. -/
def forked : Graph :=
  fed.performAll [
    .apply none forking [("x", fed.variableId 0)],
    .apply (some "late") refusing [("x", fed.variableId 1)],
    .logSoftmax ⟨.batch⟩ (fed.variableId 1)]

theorem reachable_forked : Reachable forked :=
  reachable_fed.performAll fed _

theorem reproducible_forked : Reachable forked ∧ ∃ node,
    forked.nodeAt (fed.operatorId 0) = .ok node ∧ node.frozen = true ∧
      node.outputs.find? "right" = some (fed.variableId 1) ∧
      node.outputs.find? "left" = some (fed.variableId 2) ∧
      ∃ inputs recorded first,
        forked.Reproduces (fed.operatorId 0) node inputs recorded first := by
  refine ⟨reachable_forked, _, rfl, rfl, rfl, rfl, ?_⟩
  obtain ⟨inputs, recorded, first, hreproduces, -⟩ :=
    reproducible_of_reachable forked reachable_forked (fed.operatorId 0) _ rfl rfl
  exact ⟨inputs, recorded, first, hreproduces⟩

end AxisGraph.Graph
