import AxisGraph.Proofs.Graph.Step

/-!
A call that fails leaves the graph as it was. Binding and executing check everything before they
change anything; applying an operator adds it first, so the argument there is that all the changes
up to the failure concern the added operator alone, and that withdrawing it undoes them.
-/

namespace AxisGraph.Graph

theorem modify_concat (nodes : List Node) (node : Node) (f : Node → Node) :
    (nodes ++ [node]).modify nodes.length f = nodes ++ [f node] := by
  induction nodes with
  | nil => rfl
  | cons first rest ih => simp [ih]

theorem bound_concat (graph : Graph) (node : Node) (slot : String) (id : VariableId) :
    (graph.concat node).bound (graph.operatorId graph.nodes.length) slot id =
      graph.concat { node with inputs := node.inputs.insert slot id } := by
  simp only [bound, modifyNode, concat, operatorId, modify_concat]

/-- Binding inputs to the operator that was added last changes nothing but the bindings of that
operator, however far it gets. -/
theorem bindInputs_concat (graph : Graph) (node : Node) (inputs : List (String × VariableId)) :
    ∃ taken, ((graph.concat node).bindInputs (graph.operatorId graph.nodes.length) inputs).graph =
      graph.concat { node with inputs := taken } := by
  induction inputs generalizing node with
  | nil => exact ⟨node.inputs, rfl⟩
  | cons input rest ih =>
    obtain ⟨slot, id⟩ := input
    simp only [bindInputs]
    cases hbind : (graph.concat node).bindInput (graph.operatorId graph.nodes.length) slot id with
    | error error => exact ⟨node.inputs, rfl⟩
    | ok extended =>
      have hextended := ((bindInput_eq_ok_iff _ extended _ slot id).mp hbind).2
      rw [bound_concat] at hextended
      subst extended
      exact ih { node with inputs := node.inputs.insert slot id }

theorem withdraw_concat (graph : Graph) (node : Node) : (graph.concat node).withdraw = graph := by
  simp [withdraw, concat]

/-- Add an operator, bind its inputs and execute it, and withdraw nothing. -/
def assemble (graph : Graph) (name : Option String) (operator : Operator)
    (inputs : List (String × VariableId)) : Outcome (List VariableId) :=
  ((graph.addOperator name operator).2.bindInputs (graph.operatorId graph.nodes.length)
    inputs).andThen fun _ bound => bound.execute (graph.operatorId graph.nodes.length)

theorem apply_eq (graph : Graph) (name : Option String) (operator : Operator)
    (inputs : List (String × VariableId)) :
    graph.apply name operator inputs =
      match (graph.assemble name operator inputs).answer with
      | .ok _ => graph.assemble name operator inputs
      | .error _ =>
        { graph.assemble name operator inputs with
          graph := (graph.assemble name operator inputs).graph.withdraw } :=
  rfl

theorem apply_of_error (graph : Graph) (name : Option String) (operator : Operator)
    (inputs : List (String × VariableId)) (error : GraphError)
    (h : (graph.assemble name operator inputs).answer = .error error) :
    graph.apply name operator inputs =
      { graph.assemble name operator inputs with
        graph := (graph.assemble name operator inputs).graph.withdraw } := by
  rw [apply_eq, h]

theorem apply_answer (graph : Graph) (name : Option String) (operator : Operator)
    (inputs : List (String × VariableId)) :
    (graph.apply name operator inputs).answer = (graph.assemble name operator inputs).answer := by
  rw [apply_eq]
  split <;> rfl

theorem apply_eq_assemble (graph : Graph) (name : Option String) (operator : Operator)
    (inputs : List (String × VariableId)) (ids : List VariableId)
    (h : (graph.apply name operator inputs).answer = .ok ids) :
    graph.apply name operator inputs = graph.assemble name operator inputs := by
  rw [apply_answer] at h
  rw [apply_eq, h]

/-- All that an application that succeeds shows in the view is the operator that it has added. -/
theorem Untouched.apply {α : Type} {view : Graph → α} (h : Untouched view) (graph : Graph)
    (name : Option String) (operator : Operator) (inputs : List (String × VariableId))
    (ids : List VariableId) (hanswer : (graph.apply name operator inputs).answer = .ok ids) :
    view (graph.apply name operator inputs).graph = view (graph.addOperator name operator).2 := by
  rw [graph.apply_eq_assemble name operator inputs ids hanswer]
  unfold assemble Outcome.andThen
  split
  · exact (h.execute _ _).trans (h.bindInputs _ _ inputs)
  · exact h.bindInputs _ _ inputs

/-- An assembly that fails has changed the graph by one operator only. -/
theorem assemble_graph_of_error (graph : Graph) (name : Option String) (operator : Operator)
    (inputs : List (String × VariableId)) (error : GraphError)
    (h : (graph.assemble name operator inputs).answer = .error error) :
    ∃ node, (graph.assemble name operator inputs).graph = graph.concat node := by
  let last := graph.operatorId graph.nodes.length
  let node := Node.fresh last (name.getD (generatedName operator graph.nodes.length)) operator
  let binding := (graph.concat node).bindInputs last inputs
  have hassemble : graph.assemble name operator inputs =
      binding.andThen fun _ bound => bound.execute last := rfl
  obtain ⟨taken, hchanged⟩ := graph.bindInputs_concat node inputs
  refine ⟨{ node with inputs := taken }, ?_⟩
  rw [hassemble] at h ⊢
  unfold Outcome.andThen at h ⊢
  cases hbinding : binding.answer with
  | error cause => simpa [hbinding] using hchanged
  | ok value =>
    simp only [hbinding] at h ⊢
    rw [execute_graph_of_error binding.graph last error h]
    exact hchanged

theorem apply_graph_of_error (graph : Graph) (name : Option String) (operator : Operator)
    (inputs : List (String × VariableId)) (error : GraphError)
    (h : (graph.apply name operator inputs).answer = .error error) :
    (graph.apply name operator inputs).graph = graph := by
  rw [apply_answer] at h
  obtain ⟨node, hnode⟩ := graph.assemble_graph_of_error name operator inputs error h
  rw [apply_of_error graph name operator inputs error h]
  simp only [hnode, withdraw_concat]

theorem answer_map_eq_error_iff {α β : Type} (outcome : Outcome α) (f : α → β)
    (error : GraphError) :
    (outcome.map f).answer = .error error ↔ outcome.answer = .error error := by
  unfold Outcome.map
  cases outcome.answer with
  | error cause => simp [Except.map]
  | ok value => simp [Except.map]

theorem ofChange_graph_of_error (graph : Graph) (change : Except GraphError Graph)
    (error : GraphError) (h : (ofChange graph change).answer = .error error) :
    (ofChange graph change).graph = graph := by
  cases change with
  | error cause => rfl
  | ok changed => cases h

/-- Every call that fails leaves the graph as it was, whatever its operators recorded before they
failed. -/
theorem perform_graph_of_error (graph : Graph) (call : Call) (error : GraphError)
    (h : (graph.perform call).answer = .error error) : (graph.perform call).graph = graph := by
  cases call with
  | addVariable tensor => cases h
  | addInput tensor => cases h
  | addOperator name operator => cases h
  | markOutput id => exact ofChange_graph_of_error graph _ error h
  | bindInput operator slot id => exact ofChange_graph_of_error graph _ error h
  | execute operator =>
    exact execute_graph_of_error graph operator error ((answer_map_eq_error_iff _ _ error).mp h)
  | apply name operator inputs =>
    exact apply_graph_of_error graph name operator inputs error
      ((answer_map_eq_error_iff _ _ error).mp h)
  | _ =>
    have hinner := (answer_map_eq_error_iff _ _ error).mp h
    exact apply_graph_of_error graph _ _ _ error ((answer_map_eq_error_iff _ _ error).mp hinner)

/-- An operator that records an output, an attribute and a diagnostic before it fails. -/
def refusing : Operator where
  kind := "Refusing"
  slots := ["x"]
  parameters := .logSoftmax ⟨.batch⟩
  body := fun id name => do
    let x ← Body.read "x"
    Body.publish "y" x
    Body.attachAll [.tensorwise id .batch]
    .report (.edgeIgnored id [.height]) (.finish (.error (.missingInput name "w")))

/-- The extent closest to a number. -/
def nearestExtent (n : Nat) : Extent where
  val := max 1 (min n 0xffffffffffffffff)

/-- A tensor with one axis, of the extent closest to a number. -/
def strip (n : Nat) : Tensor where
  dims := [(.batch, nearestExtent n)]
  nodup := List.pairwise_singleton _ _

/-- A graph with one input. -/
def fed : Graph := ((Graph.new ⟨0⟩).addInput { dims := [(.batch, { val := 2 })] }).2

theorem perform_refusing :
    (fed.perform (.apply (some "late") refusing [("x", fed.variableId 0)])).answer =
        .error (.missingInput "late" "w") ∧
      (fed.perform (.apply (some "late") refusing [("x", fed.variableId 0)])).graph = fed := by
  have hanswer : (fed.perform (.apply (some "late") refusing [("x", fed.variableId 0)])).answer =
      .error (.missingInput "late" "w") := by rfl
  exact ⟨hanswer, perform_graph_of_error fed _ _ hanswer⟩

end AxisGraph.Graph
