import AxisGraph.Operator.Script
import AxisGraph.Proofs.Graph.Trace
import AxisGraph.Proofs.Operator.Uses

/-!
The uses of contexts that a graph makes for its executions. A run reads exactly what is bound to the
declared slots, and what it has recorded in the end is what the graph stores if it succeeds.
-/

namespace AxisGraph

namespace Node

/-- The uses that the operator makes of its context when it runs on these inputs. -/
def uses (node : Node) (inputs : NameMap Tensor) : List Use :=
  (node.operator.body node.id node.name).uses (.start node.id node.name inputs)

/-- What a run of the operator on these inputs has recorded in the end, be it a success or not. -/
def recorded (node : Node) (inputs : NameMap Tensor) : Context :=
  ((node.operator.body node.id node.name).run (.start node.id node.name inputs)).2

end Node

namespace Graph

/-- The node of an executed operator holds a record: one output entry and one variable for each
recorded output, and the recorded attributes and diagnostics. -/
structure Holds (graph : Graph) (operator : OperatorId) (node : Node) (ids : List VariableId)
    (recorded : Context) : Prop where
  node_eq : graph.nodeAt operator = .ok node
  frozen : node.frozen = true
  outputs_perm : node.outputs.entries.Perm ((recorded.outputs.map Prod.fst).zip ids)
  published : List.Forall₂ (fun id output =>
    graph.variableAt id = .ok ⟨output.2, some operator⟩) ids recorded.outputs
  attributes_eq : node.attributes = recorded.attributes
  diagnostics_eq : node.diagnostics = recorded.diagnostics

section

variable {graph : Graph} {operator : OperatorId} {node : Node} {inputs : NameMap Tensor}

theorem Execution.recorded_eq {recorded : Context}
    (h : graph.Execution operator node inputs recorded) : node.recorded inputs = recorded := by
  unfold Node.recorded
  rw [h.run_eq]

theorem WellFormed.starts_of_execution (hwell : graph.WellFormed) {recorded : Context}
    (h : graph.Execution operator node inputs recorded) : graph.Starts operator node inputs where
  node_eq := h.node_eq
  unfrozen := h.unfrozen
  complete := h.bound
  inputs_iff := hwell.find?_inputs operator node inputs h.node_eq h.inputs_eq

theorem WellFormed.holds_of_execution (hwell : graph.WellFormed) {recorded : Context}
    (h : graph.Execution operator node inputs recorded) :
    (graph.commit operator recorded).Holds operator
      (node.committed (graph.publications recorded) recorded)
      (graph.nextIds recorded.outputs.length) recorded where
  node_eq := by
    refine (nodeAt_commit graph operator recorded h.graph_eq operator _).mpr ⟨node, h.node_eq, ?_⟩
    rw [if_pos rfl]
  frozen := rfl
  outputs_perm := by
    have hdistinct : ((graph.publications recorded).map Prod.fst).Nodup := by
      rw [names_publications]
      exact h.slotsDistinct
    unfold Node.committed
    rw [((hwell.node operator node h.node_eq).idle h.unfrozen).1]
    exact NameMap.perm_insertAll_empty _ hdistinct
  published := (hwell.published h).imp fun _ _ hpublished => hpublished.2
  attributes_eq := rfl
  diagnostics_eq := rfl

/-- What is read from a slot is the tensor bound to it, if the operator declares the slot. -/
theorem Starts.input_cases (h : graph.Starts operator node inputs) (hwell : graph.WellFormed)
    (slot : String) :
    (slot ∉ node.operator.slots ∧
      (Context.start node.id node.name inputs).input slot =
        .error (.missingInput node.name slot)) ∨
    slot ∈ node.operator.slots ∧ ∃ tensor, graph.Supplies node slot tensor ∧
      (Context.start node.id node.name inputs).input slot = .ok tensor := by
  unfold Context.input Context.start
  simp only
  cases hfind : inputs.find? slot with
  | some tensor =>
    obtain ⟨v, producer, hslot, hv⟩ := (h.inputs_iff slot tensor).mp hfind
    have hdeclared := ((hwell.node operator node h.node_eq).bound slot v hslot).1
    exact Or.inr ⟨hdeclared, tensor, ⟨v, producer, hslot, hv⟩, rfl⟩
  | none =>
    refine Or.inl ⟨fun hdeclared => ?_, rfl⟩
    obtain ⟨v, hslot⟩ := h.complete slot hdeclared
    obtain ⟨⟨tensor, producer⟩, hv⟩ := ((hwell.node operator node h.node_eq).bound slot v hslot).2
    rw [(h.inputs_iff slot tensor).mpr ⟨v, producer, hslot, hv⟩] at hfind
    cases hfind

end

/-- In every reachable graph, each run of an operator recounts what it has recorded: whatever the
operator does with the answers to its uses, a read answers with the tensor bound to the slot and
misses exactly the slots that are not declared. An execution that succeeds stores this record, each
output under its slot. -/
theorem execution_recounted (graph : Graph) (h : Reachable graph) (operator : OperatorId) :
    (∀ node inputs, graph.Starts operator node inputs →
      (Context.start node.id node.name inputs).Recounts (node.uses inputs)
        (node.recorded inputs) ∧
      ∀ slot answer, .input slot answer ∈ node.uses inputs →
        (answer = .error (.missingInput node.name slot) ↔ slot ∉ node.operator.slots) ∧
        (slot ∈ node.operator.slots →
          ∃ tensor, graph.Supplies node slot tensor ∧ answer = .ok tensor)) ∧
    ∀ ids, (graph.execute operator).answer = .ok ids → ∃ node inputs after,
      graph.Starts operator node inputs ∧
        (graph.execute operator).graph.Holds operator after ids (node.recorded inputs) := by
  constructor
  · intro node inputs hstarts
    have hrecounts := (node.operator.body node.id node.name).recounts_run node.id node.name inputs
    refine ⟨hrecounts, fun slot answer huse => ?_⟩
    rw [hrecounts.input slot answer huse]
    rcases hstarts.input_cases h.wellFormed slot with
      ⟨hnot, hanswer⟩ | ⟨hdeclared, tensor, hsupplies, hanswer⟩
    · rw [hanswer]
      exact ⟨iff_of_true rfl hnot, fun hdeclared => absurd hdeclared hnot⟩
    · rw [hanswer]
      refine ⟨iff_of_false nofun (not_not_intro hdeclared), fun _ => ⟨tensor, hsupplies, rfl⟩⟩
  · intro ids hids
    rcases graph.execute_cases operator with
      ⟨error, herror, -⟩ | ⟨node, inputs, recorded, hexecution, hanswer, hgraph⟩
    · rw [herror] at hids
      cases hids
    · rw [hanswer] at hids
      cases hids
      have hholds := h.wellFormed.holds_of_execution hexecution
      rw [← hgraph] at hholds
      rw [← hexecution.recorded_eq] at hholds ⊢
      exact ⟨node, inputs, _, h.wellFormed.starts_of_execution hexecution, hholds⟩

/-- An operator that goes on after its second output for a slot and after a read of a slot that it
does not declare were refused. -/
def stubborn : Script where
  kind := "Stubborn"
  slots := ["x"]
  parameters := .logSoftmax ⟨.batch⟩
  actions := [
    .forward "x" "y",
    .attempt (.forward "x" "y"),
    .attach (.tensorwise ⟨⟨0⟩, 7⟩ .batch),
    .tensorwise .batch,
    .tensorwise .batch,
    .attempt (.read "w"),
    .reportEdges [.width],
    .forward "x" "again"]

/-- A graph in which the operator has its slot bound. -/
def persistent : Graph :=
  fed.performAll [
    .addOperator none stubborn.operator,
    .bindInput (fed.operatorId 0) "x" (fed.variableId 0)]

theorem execution_recounted_persistent :
    (∃ node inputs, persistent.Starts (fed.operatorId 0) node inputs ∧
      (node.uses inputs).length = 11 ∧
      (node.recorded inputs).outputs.map Prod.fst = ["y", "again"] ∧
      (node.recorded inputs).attributes =
        [.tensorwise ⟨⟨0⟩, 7⟩ .batch, .tensorwise ⟨⟨0⟩, 0⟩ .batch] ∧
      (Context.start node.id node.name inputs).Recounts (node.uses inputs)
        (node.recorded inputs)) ∧
    ∃ node inputs after, persistent.Starts (fed.operatorId 0) node inputs ∧
      (persistent.execute (fed.operatorId 0)).graph.Holds (fed.operatorId 0) after
        [fed.variableId 1, fed.variableId 2] (node.recorded inputs) := by
  have hreachable : Reachable persistent := reachable_fed.performAll fed _
  obtain ⟨hrun, hstored⟩ := execution_recounted persistent hreachable (fed.operatorId 0)
  have hexecution : ∃ node inputs recorded,
      persistent.Execution (fed.operatorId 0) node inputs recorded ∧
        (node.uses inputs).length = 11 ∧ recorded.outputs.map Prod.fst = ["y", "again"] ∧
        recorded.attributes = [.tensorwise ⟨⟨0⟩, 7⟩ .batch, .tensorwise ⟨⟨0⟩, 0⟩ .batch] :=
    ⟨_, _, _, ⟨rfl, rfl, rfl, rfl⟩, rfl, rfl, rfl⟩
  obtain ⟨node, inputs, recorded, hexecution, hlength, hslots, hmarks⟩ := hexecution
  have hstarts := hreachable.wellFormed.starts_of_execution hexecution
  rw [← hexecution.recorded_eq] at hslots hmarks
  exact ⟨⟨node, inputs, hstarts, hlength, hslots, hmarks, (hrun node inputs hstarts).1⟩,
    hstored [fed.variableId 1, fed.variableId 2] rfl⟩

end Graph

end AxisGraph
