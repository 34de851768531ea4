import AxisGraph.Graph.Call
import AxisGraph.Proofs.Graph.Inputs
import AxisGraph.Proofs.Operator.Inference

/-!
Executions of built-in operators. Once the slots of a built-in operator are bound, what its
execution does is settled by the inference from the bound tensors: an error is the answer, and
anything else is published under one slot and stored with the operator.
-/

namespace AxisGraph

theorem Parameters.mem_slots_iff (parameters : Parameters) (slot : String) :
    slot ∈ parameters.operator.slots ↔ slot = "x" ∨ parameters.Weighted ∧ slot = "w" := by
  cases parameters with
  | pooling settings => simp [operator, Weighted, Pooling.slots]
  | convolution settings => simp [operator, Weighted, Convolution.slots]
  | deconvolution settings => simp [operator, Weighted, Deconvolution.slots]
  | logSoftmax settings => simp [operator, Weighted, LogSoftmax.slots]

namespace Graph

/-- The slot is bound to a variable with this tensor. -/
def Supplies (graph : Graph) (node : Node) (slot : String) (tensor : Tensor) : Prop :=
  ∃ v producer, node.inputs.find? slot = some v ∧ graph.variableAt v = .ok ⟨tensor, producer⟩

theorem exists_boundTensors (graph : Graph) (node : Node) (slots : List String)
    (found : NameMap Tensor)
    (h : ∀ slot ∈ slots, ∃ tensor, graph.Supplies node slot tensor) :
    ∃ inputs, graph.boundTensors node slots found = .ok inputs := by
  induction slots generalizing found with
  | nil => exact ⟨found, rfl⟩
  | cons slot rest ih =>
    obtain ⟨⟨tensor, v, producer, hslot, hv⟩, hrest⟩ := List.forall_mem_cons.mp h
    obtain ⟨inputs, hinputs⟩ := ih (found.insert slot tensor) hrest
    exact ⟨inputs, (boundTensors_cons_eq_ok_iff graph node slot rest found inputs).mpr
      ⟨v, ⟨tensor, producer⟩, hslot, hv, hinputs⟩⟩

theorem supplies_of_boundTensors (graph : Graph) (node : Node) (slots : List String)
    (found inputs : NameMap Tensor) (h : graph.boundTensors node slots found = .ok inputs)
    (slot : String) (hslot : slot ∈ slots) : ∃ tensor, graph.Supplies node slot tensor := by
  induction slots generalizing found with
  | nil => cases hslot
  | cons first rest ih =>
    obtain ⟨v, given, hfirst, hv, hrest⟩ :=
      (boundTensors_cons_eq_ok_iff graph node first rest found inputs).mp h
    rcases List.mem_cons.mp hslot with heq | hslot
    · subst first
      exact ⟨given.tensor, v, given.producer, hfirst, hv⟩
    · exact ih (found.insert first given.tensor) hrest hslot

/-- Once its slots are bound, a built-in operator records what it infers from the bound tensors. -/
theorem record_of_boundTensors (graph : Graph) (node : Node) (parameters : Parameters)
    (inputs : NameMap Tensor) (hoperator : node.operator = parameters.operator)
    (hinputs : graph.boundTensors node node.operator.slots ∅ = .ok inputs) :
    ∃ x w, graph.Supplies node "x" x ∧ (parameters.Weighted → graph.Supplies node "w" w) ∧
      (node.operator.body node.id node.name).record (.start node.id node.name inputs) =
        (parameters.infer node.name x w).map fun inference =>
          inference.recorded node.id node.name inputs := by
  have hdeclared : ∀ slot, slot ∈ node.operator.slots ↔
      slot = "x" ∨ parameters.Weighted ∧ slot = "w" := by
    intro slot
    rw [hoperator]
    exact parameters.mem_slots_iff slot
  have hsupplied := supplies_of_boundTensors graph node node.operator.slots ∅ inputs hinputs
  have hfind := find?_boundTensors graph node node.operator.slots ∅ inputs hinputs
  have hslot : "x" ∈ node.operator.slots := (hdeclared "x").mpr (Or.inl rfl)
  obtain ⟨x, hx⟩ := hsupplied "x" hslot
  have hweight : ∃ w, parameters.Weighted → "w" ∈ node.operator.slots ∧
      graph.Supplies node "w" w := by
    by_cases hweighted : parameters.Weighted
    · have hslot' : "w" ∈ node.operator.slots := (hdeclared "w").mpr (Or.inr ⟨hweighted, rfl⟩)
      obtain ⟨w, hw⟩ := hsupplied "w" hslot'
      exact ⟨w, fun _ => ⟨hslot', hw⟩⟩
    · exact ⟨x, fun h => absurd h hweighted⟩
  obtain ⟨w, hw⟩ := hweight
  refine ⟨x, w, hx, fun hweighted => (hw hweighted).2, ?_⟩
  rw [hoperator]
  exact parameters.record_operator node.id node.name inputs x w
    ((hfind "x" x).mpr (Or.inl ⟨hslot, hx⟩))
    (fun hweighted => (hfind "w" w).mpr (Or.inl (hw hweighted)))

theorem runNode_of_record_error (graph : Graph) (operator : OperatorId) (node : Node)
    (inputs : NameMap Tensor) (error : GraphError)
    (h : (node.operator.body node.id node.name).record (.start node.id node.name inputs) =
      .error error) : (graph.runNode operator node inputs).answer = .error error := by
  obtain ⟨after, hrun⟩ := (Body.record_eq_error_iff _ _ error).mp h
  simp only [runNode, hrun]

theorem runNode_of_record_ok (graph : Graph) (operator : OperatorId) (node : Node)
    (inputs : NameMap Tensor) (recorded : Context)
    (h : (node.operator.body node.id node.name).record (.start node.id node.name inputs) =
      .ok recorded) :
    (graph.runNode operator node inputs).answer = .ok (graph.nextIds recorded.outputs.length) ∧
      (graph.runNode operator node inputs).graph = graph.commit operator recorded := by
  have hrun := (Body.record_eq_ok_iff _ _ recorded).mp h
  simp only [runNode, hrun, and_self]

/-- The operator is a built-in one that has not been executed. Its input slot is bound to a variable
with the tensor `x`, and its weight slot, if it has one, to a variable with the tensor `w`. -/
structure Feeds (graph : Graph) (operator : OperatorId) (node : Node) (parameters : Parameters)
    (x w : Tensor) : Prop where
  node_eq : graph.nodeAt operator = .ok node
  id_eq : node.id = operator
  operator_eq : node.operator = parameters.operator
  unfrozen : node.frozen = false
  input : graph.Supplies node "x" x
  weight : parameters.Weighted → graph.Supplies node "w" w

/-- The execution of the operator succeeds with one output. The output has the tensor `y`, and the
operator is left as `after`. -/
structure Publishes (graph : Graph) (operator : OperatorId) (y : Tensor) (after : Node) : Prop where
  answer : ∃ v, (graph.execute operator).answer = .ok [v] ∧ after.outputs.find? "y" = some v ∧
    (graph.execute operator).graph.variableAt v = .ok ⟨y, some operator⟩
  node_eq : (graph.execute operator).graph.nodeAt operator = .ok after
  frozen : after.frozen = true

theorem Publishes.unique (graph : Graph) (operator : OperatorId) (y y' : Tensor)
    (after after' : Node) (h : graph.Publishes operator y after)
    (h' : graph.Publishes operator y' after') : y = y' ∧ after = after' := by
  obtain ⟨⟨v, hanswer, -, hv⟩, hnode, -⟩ := h
  obtain ⟨⟨v', hanswer', -, hv'⟩, hnode', -⟩ := h'
  rw [hanswer] at hanswer'
  cases hanswer'
  rw [hv] at hv'
  cases hv'
  exact ⟨rfl, nodeAt_unique _ operator after after' hnode hnode'⟩

namespace Feeds

variable {graph : Graph} {operator : OperatorId} {node : Node} {parameters : Parameters}
  {x w : Tensor}

theorem exists_inputs (h : graph.Feeds operator node parameters x w) :
    ∃ inputs, graph.boundTensors node node.operator.slots ∅ = .ok inputs ∧
      inputs.find? "x" = some x ∧ (parameters.Weighted → inputs.find? "w" = some w) := by
  have hslots : ∀ slot ∈ node.operator.slots, ∃ tensor, graph.Supplies node slot tensor := by
    intro slot hslot
    rw [h.operator_eq] at hslot
    rcases (parameters.mem_slots_iff slot).mp hslot with rfl | ⟨hweighted, rfl⟩
    · exact ⟨x, h.input⟩
    · exact ⟨w, h.weight hweighted⟩
  obtain ⟨inputs, hinputs⟩ := exists_boundTensors graph node node.operator.slots ∅ hslots
  have hfind := find?_boundTensors graph node node.operator.slots ∅ inputs hinputs
  refine ⟨inputs, hinputs, ?_, ?_⟩
  · refine (hfind "x" x).mpr (Or.inl ⟨?_, h.input⟩)
    rw [h.operator_eq]
    exact (parameters.mem_slots_iff "x").mpr (Or.inl rfl)
  · intro hweighted
    refine (hfind "w" w).mpr (Or.inl ⟨?_, h.weight hweighted⟩)
    rw [h.operator_eq]
    exact (parameters.mem_slots_iff "w").mpr (Or.inr ⟨hweighted, rfl⟩)

/-- The execution runs a body that records what is inferred from the bound tensors. -/
theorem execute_eq (h : graph.Feeds operator node parameters x w) :
    ∃ inputs, graph.execute operator = graph.runNode operator node inputs ∧
      (node.operator.body node.id node.name).record (.start node.id node.name inputs) =
        (parameters.infer node.name x w).map fun inference =>
          inference.recorded node.id node.name inputs := by
  obtain ⟨inputs, hinputs, hx, hw⟩ := h.exists_inputs
  refine ⟨inputs, graph.execute_eq_runNode operator node inputs h.node_eq h.unfrozen hinputs, ?_⟩
  rw [h.operator_eq]
  exact parameters.record_operator node.id node.name inputs x w hx hw

theorem answer_of_infer_error (h : graph.Feeds operator node parameters x w) (error : GraphError)
    (hinfer : parameters.infer node.name x w = .error error) :
    (graph.execute operator).answer = .error error := by
  obtain ⟨inputs, hexecute, hrecord⟩ := h.execute_eq
  rw [hexecute]
  refine graph.runNode_of_record_error operator node inputs error ?_
  rw [hrecord, hinfer]
  rfl

theorem publishes_of_infer (h : graph.Feeds operator node parameters x w) (inference : Inference)
    (hinfer : parameters.infer node.name x w = .ok inference) :
    ∃ after, graph.Publishes operator inference.y after ∧
      after.attributes = inference.marks.map (.tensorwise operator) ∧
      after.diagnostics = Inference.diagnostics operator inference.ignored := by
  obtain ⟨inputs, hexecute, hrecord⟩ := h.execute_eq
  let recorded := inference.recorded node.id node.name inputs
  let v := graph.variableId (graph.vars.length + 0)
  let after := node.committed (graph.publications recorded) recorded
  have hok : (node.operator.body node.id node.name).record (.start node.id node.name inputs) =
      .ok recorded := by
    rw [hrecord, hinfer]
    rfl
  obtain ⟨hanswer, hgraph⟩ := graph.runNode_of_record_ok operator node inputs recorded hok
  rw [← hexecute] at hanswer hgraph
  have hoperator := (nodeAt_issued graph operator node h.node_eq).1
  refine ⟨after, ⟨⟨v, hanswer, ?_, ?_⟩, ?_, rfl⟩, ?_, ?_⟩
  · exact (node.outputs.find?_insert "y" "y" v).trans (if_pos rfl)
  · rw [hgraph]
    exact (variableAt_commit graph operator recorded v _).mpr
      (Or.inr ⟨0, "y", inference.y, rfl, rfl, rfl⟩)
  · rw [hgraph]
    refine (nodeAt_commit graph operator recorded hoperator operator after).mpr
      ⟨node, h.node_eq, ?_⟩
    rw [if_pos rfl]
  · rw [← h.id_eq]
    rfl
  · rw [← h.id_eq]
    rfl

/-- An execution that publishes an output publishes what is inferred. -/
theorem exists_inference (h : graph.Feeds operator node parameters x w) (y : Tensor) (after : Node)
    (hpublishes : graph.Publishes operator y after) :
    ∃ inference, parameters.infer node.name x w = .ok inference ∧ inference.y = y ∧
      after.attributes = inference.marks.map (.tensorwise operator) ∧
      after.diagnostics = Inference.diagnostics operator inference.ignored := by
  cases hinfer : parameters.infer node.name x w with
  | error error =>
    obtain ⟨⟨v, hanswer, -⟩, -⟩ := hpublishes
    rw [h.answer_of_infer_error error hinfer] at hanswer
    cases hanswer
  | ok inference =>
    obtain ⟨after', hpublishes', hattributes, hdiagnostics⟩ := h.publishes_of_infer inference hinfer
    obtain ⟨hy, rfl⟩ := hpublishes'.unique graph operator _ y after' after hpublishes
    exact ⟨inference, rfl, hy, hattributes, hdiagnostics⟩

end Feeds

/-- A built-in operator that is executed with success has its slots bound and publishes an output.
-/
theorem WellFormed.exists_feeds {graph : Graph} (hwell : graph.WellFormed) (operator : OperatorId)
    (node : Node) (parameters : Parameters) (ids : List VariableId)
    (hnode : graph.nodeAt operator = .ok node) (hoperator : node.operator = parameters.operator)
    (hanswer : (graph.execute operator).answer = .ok ids) :
    ∃ x w y after, graph.Feeds operator node parameters x w ∧ graph.Publishes operator y after := by
  rcases graph.execute_cases operator with ⟨error, herror, -⟩ | hdone
  · rw [hanswer] at herror
    cases herror
  · obtain ⟨other, inputs, recorded, hexecution, -⟩ := hdone
    obtain rfl := nodeAt_unique graph operator node other hnode hexecution.node_eq
    obtain ⟨x, w, hx, hw, -⟩ :=
      graph.record_of_boundTensors node parameters inputs hoperator hexecution.inputs_eq
    have hfeeds : graph.Feeds operator node parameters x w :=
      ⟨hnode, (hwell.node operator node hnode).id_eq, hoperator, hexecution.unfrozen, hx, hw⟩
    cases hinfer : parameters.infer node.name x w with
    | error error =>
      rw [hfeeds.answer_of_infer_error error hinfer] at hanswer
      cases hanswer
    | ok inference =>
      obtain ⟨after, hpublishes, -⟩ := hfeeds.publishes_of_infer inference hinfer
      exact ⟨x, w, inference.y, after, hfeeds, hpublishes⟩

/-- A graph in which an operator waits for its execution on an input and on a weight. An operator
without a weight refuses to be bound to it. -/
def placed (parameters : Parameters) (x w : Tensor) : Graph :=
  let operator : OperatorId := ⟨⟨0⟩, 0⟩
  (Graph.new ⟨0⟩).performAll [
    .addInput x,
    .addVariable w,
    .addOperator none parameters.operator,
    .bindInput operator "x" ⟨⟨0⟩, 0⟩,
    .bindInput operator "w" ⟨⟨0⟩, 1⟩]

theorem feeds_placed (parameters : Parameters) (x w : Tensor) :
    ∃ node, node.name = generatedName parameters.operator 0 ∧
      (placed parameters x w).Feeds ⟨⟨0⟩, 0⟩ node parameters x w := by
  cases parameters with
  | pooling settings =>
    exact ⟨_, rfl, rfl, rfl, rfl, rfl, ⟨_, _, rfl, rfl⟩, nofun⟩
  | convolution settings =>
    exact ⟨_, rfl, rfl, rfl, rfl, rfl, ⟨_, _, rfl, rfl⟩, fun _ => ⟨_, _, rfl, rfl⟩⟩
  | deconvolution settings =>
    exact ⟨_, rfl, rfl, rfl, rfl, rfl, ⟨_, _, rfl, rfl⟩, fun _ => ⟨_, _, rfl, rfl⟩⟩
  | logSoftmax settings =>
    exact ⟨_, rfl, rfl, rfl, rfl, rfl, ⟨_, _, rfl, rfl⟩, nofun⟩

/-- A convolution whose kernel has one position. -/
def pointwise : Parameters :=
  .convolution {
    window := ⟨Convolution.undilated, Convolution.undilated, .both { val := 0 }⟩
    dilation := Convolution.undilated
    fits := Convolution.fits_undilated _ }

/-- The size closest to a number. -/
def nearestSize (n : Nat) : Size where
  val := max 1 (min n 0x7fffffffffffffff)

/-- The padding closest to a number. -/
def nearestMargin (n : Nat) : Margin where
  val := min n 0x7fffffffffffffff

/-- Windows of two positions, two positions apart. -/
def pairwise : Window :=
  ⟨.both (nearestSize 2), .both (nearestSize 2), .both { val := 0 }⟩

def halving : Pooling :=
  ⟨.max, pairwise⟩

def pairing : Convolution where
  window := pairwise
  dilation := Convolution.undilated
  fits := Convolution.fits_undilated _

def picture : Tensor where
  dims := [(.batch, nearestExtent 2), (.height, nearestExtent 3), (.width, nearestExtent 5),
    (.channel, nearestExtent 2)]

def palette : Tensor where
  dims := [(.batch, nearestExtent 2), (.height, nearestExtent 1), (.width, nearestExtent 1),
    (.channel, nearestExtent 2)]

/-- A weight with a kernel of two positions along each spatial axis. -/
def stencil : Tensor where
  dims := [(.batch, nearestExtent 2), (.height, nearestExtent 2), (.width, nearestExtent 2),
    (.channel, nearestExtent 2)]

end Graph

end AxisGraph
