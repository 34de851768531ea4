import AxisGraph.Proofs.Graph.History

/-!
Frozen operators. An operator is frozen by the execution that commits its record and by nothing
else, so what holds right after a commit and survives the growth of the graph holds of every frozen
operator of a reachable graph.
-/

namespace AxisGraph.Graph

/-- A frozen operator was frozen before the step, or the step has just executed it. -/
theorem frozen_cases (graph changed : Graph) (hstep : Step graph changed) (id : OperatorId)
    (node : Node) (hnode : changed.nodeAt id = .ok node) (hfrozen : node.frozen = true) :
    graph.nodeAt id = .ok node ∨
      ∃ old inputs recorded, graph.Execution id old inputs recorded ∧
        changed = graph.commit id recorded ∧
        node = old.committed (graph.publications recorded) recorded := by
  cases hstep with
  | addVariable tensor => exact Or.inl hnode
  | addInput tensor => exact Or.inl hnode
  | markOutput v hissued hnew => exact Or.inl hnode
  | addOperator name operator =>
    rcases (nodeAt_concat graph _ id node).mp hnode with hold | ⟨-, hfresh⟩
    · exact Or.inl hold
    · subst hfresh
      cases hfrozen
  | bind operator slot v target hbinding =>
    obtain ⟨old, hold, rfl⟩ :=
      (nodeAt_bound graph operator slot v hbinding.graph_eq id node).mp hnode
    by_cases hid : id = operator
    · subst id
      have htarget := nodeAt_unique graph operator old target hold hbinding.node_eq
      subst old
      rw [if_pos rfl] at hfrozen
      have hunfrozen := hbinding.unfrozen
      rw [show target.frozen = true from hfrozen] at hunfrozen
      cases hunfrozen
    · rw [if_neg hid]
      exact Or.inl hold
  | commit operator target inputs recorded hexecution =>
    obtain ⟨old, hold, rfl⟩ :=
      (nodeAt_commit graph operator recorded hexecution.graph_eq id node).mp hnode
    by_cases hid : id = operator
    · subst id
      have htarget := nodeAt_unique graph operator old target hold hexecution.node_eq
      subst old
      rw [if_pos rfl]
      exact Or.inr ⟨target, inputs, recorded, hexecution, rfl, rfl⟩
    · rw [if_neg hid]
      exact Or.inl hold

/-- A property of an operator that its execution establishes and that later changes of the graph
keep holds of every frozen operator of a reachable graph. -/
theorem Reachable.frozen (P : Graph → OperatorId → Node → Prop)
    (hcommit : ∀ (graph : Graph) id node inputs recorded, graph.WellFormed →
      graph.Execution id node inputs recorded →
      P (graph.commit id recorded) id (node.committed (graph.publications recorded) recorded))
    (hgrowth : ∀ (graph later : Graph) id node, graph.Extends later →
      P graph id node → P later id node)
    (graph : Graph) (h : Reachable graph) (id : OperatorId) (node : Node)
    (hnode : graph.nodeAt id = .ok node) (hfrozen : node.frozen = true) : P graph id node := by
  let Holds : Graph → Prop := fun graph => graph.WellFormed ∧
    ∀ id node, graph.nodeAt id = .ok node → node.frozen = true → P graph id node
  have hnew : ∀ id, Holds (.new id) := by
    intro id
    refine ⟨wellFormed_new id, ?_⟩
    intro operator node hnode
    have hlt := (nodeAt_issued (.new id) operator node hnode).2
    cases hlt
  have hstep : ∀ graph changed, Holds graph → Step graph changed → Holds changed := by
    intro graph changed hholds hstep
    refine ⟨step_preserves graph changed hholds.1 hstep, ?_⟩
    intro id node hnode hfrozen
    rcases frozen_cases graph changed hstep id node hnode hfrozen with
      hold | ⟨old, inputs, recorded, hexecution, rfl, rfl⟩
    · exact hgrowth graph changed id node (step_extends graph changed hstep)
        (hholds.2 id node hold hfrozen)
    · exact hcommit graph id old inputs recorded hholds.1 hexecution
  exact (h.invariant Holds hnew hstep).2 id node hnode hfrozen

end AxisGraph.Graph
