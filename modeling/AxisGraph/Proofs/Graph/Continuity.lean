import AxisGraph.Proofs.Graph.Builtin
import AxisGraph.Proofs.Graph.Frozen

/-!
What passes through the built-in operators of a graph. Each of them has one output, in the layout of
its input and with the same batch extent, and marks every axis of that layout but those that it
works along. So the layout and the batch extent of a variable are also those of whatever built-in
operators make of it, over any number of operators.
-/

namespace AxisGraph

/-- The axes of an input that the operator marks, in the order of the layout. -/
def Parameters.markedAxes (parameters : Parameters) (layout : Layout) : List Axis :=
  match parameters with
  | pooling _ | convolution _ | deconvolution _ => layout.axes.filter fun axis => !axis.isSpatial
  | logSoftmax settings => layout.axes.filter fun axis => axis != settings.axis

/-- The output has the layout and the batch extent of the input, and these axes are marked. -/
structure Inference.Continues (x : Tensor) (marks : List Axis) (inference : Inference) : Prop where
  layout_eq : inference.y.layout = x.layout
  batch_eq : inference.y.extent? .batch = x.extent? .batch
  marks_eq : inference.marks = marks

/-- An image that keeps the batch extent of the input is published in the layout of the input. -/
theorem Image.infer_continues (image : Image) (x : Tensor) (inference : Inference)
    (h : image.infer x = .ok inference) (hbatch : x.extent? .batch = some image.extents.batch) :
    inference.Continues x (x.layout.axes.filter fun axis => !axis.isSpatial) := by
  obtain ⟨hy, hmarks, -⟩ := (image.infer_eq_ok_iff x inference).mp h
  obtain ⟨-, hlayout, -⟩ := (Tensor.changeLayout_eq_ok_iff _ inference.y x.layout).mp hy
  have hextent : inference.y.extent? .batch = some image.extents.batch :=
    image.extent?_infer x inference h .batch
  exact ⟨hlayout, hextent.trans hbatch.symm, hmarks⟩

theorem weightedImage_continues (name : String) (x w : Tensor) (ksize : Spatial Size)
    (infer : SpatialAxis → Extent → Except ShapeIssue Extent) (inference : Inference)
    (h : (weightedImage name x w ksize infer >>= fun image => image.infer x) = .ok inference) :
    inference.Continues x (x.layout.axes.filter fun axis => !axis.isSpatial) := by
  obtain ⟨image, himage, hinfer⟩ := (bind_eq_ok_iff _ _ inference).mp h
  obtain ⟨-, hbatch, -⟩ := (weightedImage_eq_ok_iff name x w ksize infer image).mp himage
  exact image.infer_continues x inference hinfer hbatch

/-- Every built-in operator keeps the layout and the batch extent of its input. -/
theorem Parameters.infer_continues (parameters : Parameters) (name : String) (x w : Tensor)
    (inference : Inference) (h : parameters.infer name x w = .ok inference) :
    inference.Continues x (parameters.markedAxes x.layout) := by
  cases parameters with
  | pooling settings =>
    obtain ⟨image, himage, hinfer⟩ := (bind_eq_ok_iff _ _ inference).mp h
    obtain ⟨hbatch, -⟩ := (settings.image_eq_ok_iff name x image).mp himage
    exact image.infer_continues x inference hinfer hbatch
  | convolution settings =>
    exact weightedImage_continues name x w settings.window.ksize _ inference h
  | deconvolution settings =>
    exact weightedImage_continues name x w settings.window.ksize _ inference h
  | logSoftmax settings =>
    obtain ⟨-, hy, hmarks, -⟩ := (settings.infer_eq_ok_iff x inference).mp h
    exact ⟨congrArg Tensor.layout hy, congrArg (Tensor.extent? · .batch) hy, hmarks⟩

namespace Graph

/-- The operator has one output, in the slot `y`. It has the layout and the batch extent of the
variable in the slot `x`, and the attributes of the operator mark the axes of that layout. -/
structure Continues (graph : Graph) (operator : OperatorId) (node : Node) (parameters : Parameters)
    (input output : VariableId) (x y : Tensor) : Prop where
  input_eq : node.inputs.find? "x" = some input
  outputs_eq : node.outputs.entries = [("y", output)]
  x_eq : ∃ maker, graph.variableAt input = .ok ⟨x, maker⟩
  y_eq : graph.variableAt output = .ok ⟨y, some operator⟩
  layout_eq : y.layout = x.layout
  batch_eq : y.extent? .batch = x.extent? .batch
  attributes_eq : node.attributes = (parameters.markedAxes x.layout).map (.tensorwise operator)

namespace Continues

variable {graph later : Graph} {operator : OperatorId} {node : Node} {parameters : Parameters}
  {input output : VariableId} {x y : Tensor}

theorem mono (hkeeps : graph.KeepsVariables later)
    (h : graph.Continues operator node parameters input output x y) :
    later.Continues operator node parameters input output x y where
  input_eq := h.input_eq
  outputs_eq := h.outputs_eq
  x_eq := by
    obtain ⟨maker, hx⟩ := h.x_eq
    exact ⟨maker, hkeeps input _ hx⟩
  y_eq := hkeeps output _ h.y_eq
  layout_eq := h.layout_eq
  batch_eq := h.batch_eq
  attributes_eq := h.attributes_eq

/-- The execution of a built-in operator stores what is inferred from its input. -/
theorem commit {inputs : NameMap Tensor} {recorded : Context} (hwell : graph.WellFormed)
    (hexecution : graph.Execution operator node inputs recorded)
    (hoperator : node.operator = parameters.operator) :
    ∃ input output x y, (graph.commit operator recorded).Continues operator
      (node.committed (graph.publications recorded) recorded) parameters input output x y := by
  have hnode := hwell.node operator node hexecution.node_eq
  obtain ⟨x, w, ⟨input, maker, hinput, hx⟩, -, hrecord⟩ :=
    graph.record_of_boundTensors node parameters inputs hoperator hexecution.inputs_eq
  rw [(Body.record_eq_ok_iff _ _ recorded).mpr hexecution.run_eq] at hrecord
  cases hinfer : parameters.infer node.name x w with
  | error error =>
    rw [hinfer] at hrecord
    cases hrecord
  | ok inference =>
    rw [hinfer] at hrecord
    have hrecorded : recorded = inference.recorded node.id node.name inputs :=
      Except.ok.inj hrecord
    subst recorded
    have hcontinues := parameters.infer_continues node.name x w inference hinfer
    refine ⟨input, graph.variableId graph.vars.length, x, inference.y, ?_⟩
    constructor
    · exact hinput
    · unfold Node.committed
      rw [(hnode.idle hexecution.unfrozen).1]
      rfl
    · exact ⟨maker, keepsVariables_commit graph operator _ input _ hx⟩
    · exact (variableAt_commit graph operator _ _ _).mpr
        (Or.inr ⟨0, "y", inference.y, rfl, rfl, rfl⟩)
    · exact hcontinues.layout_eq
    · exact hcontinues.batch_eq
    · rw [← hcontinues.marks_eq, ← hnode.id_eq]
      rfl

end Continues

/-- Every built-in operator that has been executed continues its input. -/
theorem Reachable.continues (graph : Graph) (h : Reachable graph) (operator : OperatorId)
    (node : Node) (parameters : Parameters) (hnode : graph.nodeAt operator = .ok node)
    (hfrozen : node.frozen = true) (hoperator : node.operator = parameters.operator) :
    ∃ input output x y, graph.Continues operator node parameters input output x y := by
  refine h.frozen (fun graph operator node => node.operator = parameters.operator →
    ∃ input output x y, graph.Continues operator node parameters input output x y) ?_ ?_ graph
    operator node hnode hfrozen hoperator
  · intro graph operator node inputs recorded hwell hexecution hoperator
    exact Continues.commit hwell hexecution hoperator
  · intro graph later operator node hextends hcontinues hoperator
    obtain ⟨input, output, x, y, hcontinues⟩ := hcontinues hoperator
    exact ⟨input, output, x, y, hcontinues.mono hextends.vars⟩

/-- A built-in operator makes its output `y` of the variable in its slot `x`. -/
def PassesOn (graph : Graph) (input output : VariableId) : Prop :=
  ∃ operator node parameters, graph.nodeAt operator = .ok node ∧
    node.operator = Parameters.operator parameters ∧ node.inputs.find? "x" = some input ∧
    node.outputs.find? "y" = some output

theorem Reachable.of_passesOn (graph : Graph) (h : Reachable graph) (input output : VariableId)
    (hpasses : graph.PassesOn input output) (found : Variable)
    (hinput : graph.variableAt input = .ok found) :
    ∃ made, graph.variableAt output = .ok made ∧ made.tensor.layout = found.tensor.layout ∧
      made.tensor.extent? .batch = found.tensor.extent? .batch := by
  obtain ⟨operator, node, parameters, hnode, hoperator, hx, hy⟩ := hpasses
  have hfrozen : node.frozen = true := by
    cases hfrozen : node.frozen with
    | true => rfl
    | false =>
      exact absurd hy ((h.wellFormed.node operator node hnode).no_outputs hfrozen "y" output)
  obtain ⟨input', output', x, y, hcontinues⟩ :=
    h.continues graph operator node parameters hnode hfrozen hoperator
  have hinput' : input' = input := Option.some.inj (hcontinues.input_eq.symm.trans hx)
  have houtput' : output' = output := by
    rw [NameMap.find?_eq_some_iff, hcontinues.outputs_eq, List.mem_singleton] at hy
    exact (congrArg Prod.snd hy).symm
  subst input' output'
  obtain ⟨maker, hfound⟩ := hcontinues.x_eq
  rw [hinput] at hfound
  cases hfound
  exact ⟨⟨y, some operator⟩, hcontinues.y_eq, hcontinues.layout_eq, hcontinues.batch_eq⟩

/-- In every reachable graph, each executed built-in operator continues its input, and the layout
and the batch extent stay the same along every path of built-in operators. -/
theorem continuous_of_reachable (graph : Graph) (h : Reachable graph) :
    (∀ operator node parameters, graph.nodeAt operator = .ok node → node.frozen = true →
      node.operator = Parameters.operator parameters →
        ∃ input output x y, graph.Continues operator node parameters input output x y) ∧
    ∀ first last, Relation.ReflTransGen graph.PassesOn first last →
      ∀ found, graph.variableAt first = .ok found →
        ∃ reached, graph.variableAt last = .ok reached ∧
          reached.tensor.layout = found.tensor.layout ∧
          reached.tensor.extent? .batch = found.tensor.extent? .batch := by
  constructor
  · intro operator node parameters hnode hfrozen hoperator
    exact h.continues graph operator node parameters hnode hfrozen hoperator
  · intro first last hpath found hfound
    induction hpath with
    | refl => exact ⟨found, hfound, rfl, rfl⟩
    | tail _ hpasses ih =>
      obtain ⟨middle, hmiddle, hlayout, hbatch⟩ := ih
      obtain ⟨made, hmade, hlayout', hbatch'⟩ := h.of_passesOn graph _ _ hpasses middle hmiddle
      exact ⟨made, hmade, hlayout'.trans hlayout, hbatch'.trans hbatch⟩

/-- A log-softmax over the channels of a convolution, on tensors in unusual layouts. -/
def stacked : Graph :=
  (placed pointwise (picture.arrange .chwn) (palette.arrange .nchw)).performAll [
    .execute ⟨⟨0⟩, 0⟩,
    .logSoftmax ⟨.channel⟩ ⟨⟨0⟩, 2⟩]

theorem reachable_stacked : Reachable stacked :=
  (Reachable.performAll _ (.new ⟨0⟩) _).performAll _ _

theorem continuous_stacked : Reachable stacked ∧
    Relation.ReflTransGen stacked.PassesOn ⟨⟨0⟩, 0⟩ ⟨⟨0⟩, 3⟩ ∧
    (∃ reached, stacked.variableAt ⟨⟨0⟩, 3⟩ = .ok reached ∧ reached.tensor.layout = .chwn ∧
      reached.tensor.extent? .batch = some (nearestExtent 2)) ∧
    ∃ node x y, stacked.nodeAt ⟨⟨0⟩, 1⟩ = .ok node ∧ node.frozen = true ∧
      stacked.Continues ⟨⟨0⟩, 1⟩ node (.logSoftmax ⟨.channel⟩) ⟨⟨0⟩, 2⟩ ⟨⟨0⟩, 3⟩ x y := by
  have hpath : Relation.ReflTransGen stacked.PassesOn ⟨⟨0⟩, 0⟩ ⟨⟨0⟩, 3⟩ := by
    have hfirst : stacked.PassesOn ⟨⟨0⟩, 0⟩ ⟨⟨0⟩, 2⟩ :=
      ⟨⟨⟨0⟩, 0⟩, _, pointwise, rfl, rfl, rfl, rfl⟩
    have hsecond : stacked.PassesOn ⟨⟨0⟩, 2⟩ ⟨⟨0⟩, 3⟩ :=
      ⟨⟨⟨0⟩, 1⟩, _, .logSoftmax ⟨.channel⟩, rfl, rfl, rfl, rfl⟩
    exact .tail (.single hfirst) hsecond
  obtain ⟨hcontinues, hpaths⟩ := continuous_of_reachable stacked reachable_stacked
  obtain ⟨reached, hreached, hlayout, hbatch⟩ := hpaths _ _ hpath _ rfl
  obtain ⟨input, output, x, y, hsoftmax⟩ :=
    hcontinues ⟨⟨0⟩, 1⟩ _ (.logSoftmax ⟨.channel⟩) rfl rfl rfl
  refine ⟨reachable_stacked, hpath, ⟨reached, hreached, hlayout, hbatch⟩, _, x, y, rfl, rfl, ?_⟩
  have hinput : input = ⟨⟨0⟩, 2⟩ := (Option.some.inj hsoftmax.input_eq).symm
  have houtput : output = ⟨⟨0⟩, 3⟩ :=
    (congrArg Prod.snd (List.singleton_inj.mp hsoftmax.outputs_eq)).symm
  subst hinput houtput
  exact hsoftmax

end Graph

end AxisGraph
