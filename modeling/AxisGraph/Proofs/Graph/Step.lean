import AxisGraph.Graph.Call
import AxisGraph.Proofs.Graph.Lookup
import Mathlib.Logic.Relation

/-!
The elementary changes of a graph. A call either leaves the graph as it was or takes it through a
sequence of these steps, so a property that every step keeps holds in every reachable graph. The
steps carry all that the calls have checked before they change anything.
-/

namespace AxisGraph.Graph

/-- The slot is declared by the operator and open for the variable. -/
structure Binding (graph : Graph) (operator : OperatorId) (slot : String) (id : VariableId)
    (node : Node) : Prop where
  node_eq : graph.nodeAt operator = .ok node
  issued : graph.Issued id
  unfrozen : node.frozen = false
  declared : slot ∈ node.operator.slots
  free : node.inputs.find? slot = none

/-- The graph with a variable bound to a slot. -/
def bound (graph : Graph) (operator : OperatorId) (slot : String) (id : VariableId) : Graph :=
  graph.modifyNode operator fun node => { node with inputs := node.inputs.insert slot id }

theorem Binding.graph_eq {graph : Graph} {operator : OperatorId} {slot : String} {id : VariableId}
    {node : Node} (h : graph.Binding operator slot id node) : operator.graph = graph.id :=
  (nodeAt_issued graph operator node h.node_eq).1

theorem exists_binding_iff (graph : Graph) (operator : OperatorId) (slot : String)
    (id : VariableId) (node : Node) (hnode : graph.nodeAt operator = .ok node) :
    (∃ other, graph.Binding operator slot id other) ↔
      graph.Issued id ∧ node.frozen = false ∧ slot ∈ node.operator.slots ∧
        node.inputs.find? slot = none := by
  constructor
  · intro h
    obtain ⟨other, hbinding⟩ := h
    have heq : other = node := by
      have hother := hbinding.node_eq
      rw [hnode] at hother
      exact (Except.ok.inj hother).symm
    subst other
    exact ⟨hbinding.issued, hbinding.unfrozen, hbinding.declared, hbinding.free⟩
  · intro h
    exact ⟨node, hnode, h.1, h.2.1, h.2.2.1, h.2.2.2⟩

theorem bindInput_eq_ok_iff (graph changed : Graph) (operator : OperatorId) (slot : String)
    (id : VariableId) :
    graph.bindInput operator slot id = .ok changed ↔
      (∃ node, graph.Binding operator slot id node) ∧ changed = graph.bound operator slot id := by
  unfold bindInput
  cases hnode : graph.nodeAt operator with
  | error error =>
    simp only [bind, Except.bind, reduceCtorEq, false_iff, not_and]
    intro h
    obtain ⟨node, hbinding⟩ := h
    rw [hbinding.node_eq] at hnode
    cases hnode
  | ok node =>
    rw [exists_binding_iff graph operator slot id node hnode]
    cases hfound : graph.variableAt id with
    | error error =>
      simp [bind, Except.bind, Issued, hfound]
    | ok found =>
      have hissued : graph.Issued id := ⟨found, hfound⟩
      have hcontains : node.inputs.contains slot = (node.inputs.find? slot).isSome := rfl
      simp only [bind, Except.bind, pure, Except.pure, hcontains]
      cases hfrozen : node.frozen with
      | true => simp
      | false =>
        by_cases hslot : slot ∈ node.operator.slots
        · by_cases hfree : node.inputs.find? slot = none
          · simp [hissued, hslot, hfree, bound, eq_comm]
          · have hsome := Option.isSome_iff_ne_none.mpr hfree
            simp [hslot, hfree, hsome]
        · simp [hslot]

/-- The tensors to read are missing because a slot is open or its variable is unknown. -/
theorem boundTensors_error_cases (graph : Graph) (node : Node) (slots : List String)
    (found : NameMap Tensor) (error : GraphError)
    (h : graph.boundTensors node slots found = .error error) :
    (∃ slot, error = .missingInput node.name slot) ∨ ∃ v, error = .unknownVariable v := by
  induction slots generalizing found with
  | nil => cases h
  | cons slot rest ih =>
    unfold boundTensors at h
    split at h
    · exact Or.inl ⟨slot, (Except.error.inj h).symm⟩
    · rename_i v hslot
      cases hv : graph.variableAt v with
      | error cause =>
        rw [hv] at h
        cases h
        exact Or.inr ⟨v, graph.variableAt_error v error hv⟩
      | ok given =>
        rw [hv] at h
        exact ih _ h

/-- The operator has not been executed, all its declared slots are bound, and its body succeeds on
the bound tensors and leaves this record. -/
structure Execution (graph : Graph) (operator : OperatorId) (node : Node)
    (inputs : NameMap Tensor) (recorded : Context) : Prop where
  node_eq : graph.nodeAt operator = .ok node
  unfrozen : node.frozen = false
  inputs_eq : graph.boundTensors node node.operator.slots ∅ = .ok inputs
  run_eq : (node.operator.body node.id node.name).run (.start node.id node.name inputs) =
    (.ok (), recorded)

theorem execute_eq_runNode (graph : Graph) (operator : OperatorId) (node : Node)
    (inputs : NameMap Tensor) (hnode : graph.nodeAt operator = .ok node)
    (hunfrozen : node.frozen = false)
    (hinputs : graph.boundTensors node node.operator.slots ∅ = .ok inputs) :
    graph.execute operator = graph.runNode operator node inputs := by
  unfold execute
  simp only [hnode, hunfrozen, Bool.false_eq_true, ↓reduceIte, hinputs]

/-- An execution fails and leaves the graph as it was, or commits what its body recorded. -/
theorem execute_cases (graph : Graph) (operator : OperatorId) :
    (∃ error, (graph.execute operator).answer = .error error ∧
      (graph.execute operator).graph = graph) ∨
    ∃ node inputs recorded, graph.Execution operator node inputs recorded ∧
      (graph.execute operator).answer = .ok (graph.nextIds recorded.outputs.length) ∧
      (graph.execute operator).graph = graph.commit operator recorded := by
  unfold execute
  cases hnode : graph.nodeAt operator with
  | error error => exact Or.inl ⟨error, rfl, rfl⟩
  | ok node =>
    cases hfrozen : node.frozen with
    | true => exact Or.inl ⟨.operatorFrozen node.name, by simp [hfrozen, Outcome.of]⟩
    | false =>
      cases hinputs : graph.boundTensors node node.operator.slots ∅ with
      | error error => exact Or.inl ⟨error, by simp [hfrozen, hinputs, Outcome.of]⟩
      | ok inputs =>
        simp only [hfrozen, Bool.false_eq_true, ↓reduceIte, hinputs, runNode]
        cases hrun : (node.operator.body node.id node.name).run
            (.start node.id node.name inputs) with
        | mk result recorded =>
          cases result with
          | error error => exact Or.inl ⟨error, rfl, rfl⟩
          | ok value =>
            exact Or.inr ⟨node, inputs, recorded, ⟨hnode, hfrozen, hinputs, hrun⟩, rfl, rfl⟩

theorem execute_graph_of_error (graph : Graph) (operator : OperatorId) (error : GraphError)
    (h : (graph.execute operator).answer = .error error) :
    (graph.execute operator).graph = graph := by
  rcases graph.execute_cases operator with hfail | hdone
  · obtain ⟨-, -, hgraph⟩ := hfail
    exact hgraph
  · obtain ⟨node, inputs, recorded, -, hanswer, -⟩ := hdone
    rw [hanswer] at h
    cases h

/-- One elementary change of a graph. -/
inductive Step (graph : Graph) : Graph → Prop
  | addVariable (tensor : Tensor) : Step graph (graph.addVariable tensor).2
  | addInput (tensor : Tensor) : Step graph (graph.addInput tensor).2
  | markOutput (id : VariableId) (hissued : graph.Issued id) (hnew : id ∉ graph.outputs) :
      Step graph { graph with outputs := graph.outputs ++ [id] }
  | addOperator (name : Option String) (operator : Operator) :
      Step graph (graph.addOperator name operator).2
  | bind (operator : OperatorId) (slot : String) (id : VariableId) (node : Node)
      (h : graph.Binding operator slot id node) : Step graph (graph.bound operator slot id)
  | commit (operator : OperatorId) (node : Node) (inputs : NameMap Tensor) (recorded : Context)
      (h : graph.Execution operator node inputs recorded) :
      Step graph (graph.commit operator recorded)

abbrev Steps : Graph → Graph → Prop := Relation.ReflTransGen Step

theorem markOutput_eq_ok_iff (graph changed : Graph) (id : VariableId) :
    graph.markOutput id = .ok changed ↔ graph.Issued id ∧
      changed = if id ∈ graph.outputs then graph
        else { graph with outputs := graph.outputs ++ [id] } := by
  unfold markOutput
  cases hfound : graph.variableAt id with
  | error error => simp [bind, Except.bind, Issued, hfound]
  | ok found => simp [bind, Except.bind, pure, Except.pure, Issued, hfound, eq_comm]

theorem steps_markOutput (graph changed : Graph) (id : VariableId)
    (h : graph.markOutput id = .ok changed) : Steps graph changed := by
  obtain ⟨hissued, rfl⟩ := (markOutput_eq_ok_iff graph changed id).mp h
  split
  · exact .refl
  · rename_i hnew
    exact .single (.markOutput id hissued hnew)

theorem steps_bindInput (graph changed : Graph) (operator : OperatorId) (slot : String)
    (id : VariableId) (h : graph.bindInput operator slot id = .ok changed) :
    Steps graph changed := by
  obtain ⟨hbinding, rfl⟩ := (bindInput_eq_ok_iff graph changed operator slot id).mp h
  obtain ⟨node, hbinding⟩ := hbinding
  exact .single (.bind operator slot id node hbinding)

theorem steps_bindInputs (graph : Graph) (operator : OperatorId)
    (inputs : List (String × VariableId)) :
    Steps graph (graph.bindInputs operator inputs).graph := by
  induction inputs generalizing graph with
  | nil => exact .refl
  | cons input rest ih =>
    obtain ⟨slot, id⟩ := input
    simp only [bindInputs]
    cases hbind : graph.bindInput operator slot id with
    | error error => exact .refl
    | ok extended =>
      exact (steps_bindInput graph extended operator slot id hbind).trans (ih extended)

theorem steps_execute (graph : Graph) (operator : OperatorId) :
    Steps graph (graph.execute operator).graph := by
  rcases graph.execute_cases operator with hfail | hdone
  · obtain ⟨-, -, hgraph⟩ := hfail
    rw [hgraph]
  · obtain ⟨node, inputs, recorded, hexecution, -, hgraph⟩ := hdone
    rw [hgraph]
    exact .single (.commit operator node inputs recorded hexecution)

/-- Bindings and commits change nothing of what the view shows. -/
structure Untouched {α : Type} (view : Graph → α) : Prop where
  bound : ∀ graph operator slot id, view (graph.bound operator slot id) = view graph
  commit : ∀ graph operator recorded, view (graph.commit operator recorded) = view graph

namespace Untouched

variable {α : Type} {view : Graph → α}

theorem bindInput (h : Untouched view) (graph changed : Graph) (operator : OperatorId)
    (slot : String) (id : VariableId) (hbind : graph.bindInput operator slot id = .ok changed) :
    view changed = view graph := by
  obtain ⟨-, rfl⟩ := (bindInput_eq_ok_iff graph changed operator slot id).mp hbind
  exact h.bound graph operator slot id

theorem perform_bindInput (h : Untouched view) (graph : Graph) (operator : OperatorId)
    (slot : String) (id : VariableId) :
    view (graph.perform (.bindInput operator slot id)).graph = view graph := by
  simp only [perform]
  cases hbind : graph.bindInput operator slot id with
  | error error => rfl
  | ok changed => exact h.bindInput graph changed operator slot id hbind

theorem bindInputs (h : Untouched view) (graph : Graph) (operator : OperatorId)
    (inputs : List (String × VariableId)) :
    view (graph.bindInputs operator inputs).graph = view graph := by
  induction inputs generalizing graph with
  | nil => rfl
  | cons input rest ih =>
    obtain ⟨slot, id⟩ := input
    simp only [Graph.bindInputs]
    cases hbind : graph.bindInput operator slot id with
    | error error => rfl
    | ok extended => exact (ih extended).trans (h.bindInput graph extended operator slot id hbind)

theorem execute (h : Untouched view) (graph : Graph) (operator : OperatorId) :
    view (graph.execute operator).graph = view graph := by
  rcases graph.execute_cases operator with hfail | hdone
  · obtain ⟨-, -, hgraph⟩ := hfail
    rw [hgraph]
  · obtain ⟨node, inputs, recorded, -, -, hgraph⟩ := hdone
    rw [hgraph]
    exact h.commit graph operator recorded

end Untouched

end AxisGraph.Graph
