import AxisGraph.Proofs.Graph.Builtin
import AxisGraph.Proofs.Graph.Reachable
import AxisGraph.Proofs.Window.Exactness

/-!
The issues with its shapes for which a built-in operator is refused. Since window arithmetic is
exact, none of them is an overflow, and only a transposed convolution is refused for an extent that
is not positive.
-/

namespace AxisGraph

/-- Every issue with the shapes for which the result can be refused satisfies the predicate. -/
def RefusedFor (P : ShapeIssue → Prop) {α : Type} (result : Except GraphError α) : Prop :=
  ∀ name issue, result = .error (.incompatibleShape name issue) → P issue

namespace RefusedFor

variable {P : ShapeIssue → Prop} {α β : Type}

theorem ok (value : α) : RefusedFor P (.ok value) :=
  fun _ _ h => nomatch h

theorem bind (result : Except GraphError α) (f : α → Except GraphError β)
    (h : RefusedFor P result) (hf : ∀ value, RefusedFor P (f value)) :
    RefusedFor P (result >>= f) := by
  intro name issue herror
  cases result with
  | error cause =>
    cases herror
    exact h name issue rfl
  | ok value => exact hf value name issue herror

theorem extent (tensor : Tensor) (axis : Axis) : RefusedFor P (tensor.extent axis) := by
  intro name issue herror
  unfold Tensor.extent at herror
  split at herror <;> cases herror

theorem changeLayout (tensor : Tensor) (target : Layout) :
    RefusedFor P (tensor.changeLayout target) := by
  intro name issue herror
  unfold Tensor.changeLayout at herror
  split at herror <;> cases herror

theorem inferAlong (operator : String) (x : Tensor) (axis : SpatialAxis)
    (infer : Extent → Except ShapeIssue α)
    (h : ∀ input issue, infer input = .error issue → P issue) :
    RefusedFor P (inferAlong operator x axis infer) := by
  refine bind _ _ (extent x axis.toAxis) ?_
  intro input name issue herror
  cases hinfer : infer input with
  | ok value =>
    rw [hinfer] at herror
    cases herror
  | error cause =>
    rw [hinfer] at herror
    cases herror
    exact h input issue hinfer

theorem check (p : Prop) [Decidable p] (name : String) (issue : ShapeIssue)
    (result : Except GraphError α) (hissue : P issue) (h : RefusedFor P result) :
    RefusedFor P (if p then result else .error (.incompatibleShape name issue)) := by
  split
  · exact h
  · intro name issue herror
    cases herror
    exact hissue

theorem weightChannels (name : String) (x w : Tensor) (ksize : Spatial Size)
    (hlayout : P (.weightLayout w.layout)) (hkernel : ∀ kernel, P (.weightKernel kernel ksize))
    (hchannels : ∀ input expected, P (.channels input expected)) :
    RefusedFor P (weightChannels name x w ksize) := by
  refine check _ name _ _ hlayout ?_
  refine bind _ _ (extent w .height) fun height => bind _ _ (extent w .width) fun width => ?_
  refine check _ name _ _ (hkernel ⟨height, width⟩) ?_
  refine bind _ _ (extent x .channel) fun input => bind _ _ (extent w .channel) fun expected => ?_
  exact check _ name _ _ (hchannels input expected) (extent w .batch)

theorem infer (result : Except GraphError Image) (x : Tensor) (h : RefusedFor P result) :
    RefusedFor P (result >>= fun image => image.infer x) :=
  .bind _ _ h fun _ => .bind _ _ (.changeLayout _ _) fun _ => .ok _

theorem weightedImage (name : String) (x w : Tensor) (ksize : Spatial Size)
    (infer : SpatialAxis → Extent → Except ShapeIssue Extent)
    (hlayout : P (.weightLayout w.layout)) (hkernel : ∀ kernel, P (.weightKernel kernel ksize))
    (hchannels : ∀ input expected, P (.channels input expected))
    (h : ∀ axis input issue, infer axis input = .error issue → P issue) :
    RefusedFor P (weightedImage name x w ksize infer) := by
  have hweight : RefusedFor P (AxisGraph.weightChannels name x w ksize) :=
    .weightChannels name x w ksize hlayout hkernel hchannels
  have halong : ∀ axis, RefusedFor P (AxisGraph.inferAlong name x axis (infer axis)) :=
    fun axis => .inferAlong name x axis (infer axis) (h axis)
  exact .bind _ _ hweight fun channel => .bind _ _ (.extent x .batch) fun batch =>
    .bind _ _ (halong .height) fun height => .bind _ _ (halong .width) fun width => .ok _

theorem pooling (settings : Pooling) (name : String) (x : Tensor)
    (h : ∀ axis input issue, (settings.window.along axis).pooled axis input = .error issue →
      P issue) : RefusedFor P (settings.image name x) := by
  have halong : ∀ axis, RefusedFor P (settings.pooledAlong name x axis) :=
    fun axis => .inferAlong name x axis _ (h axis)
  exact .bind _ _ (.extent x .batch) fun batch => .bind _ _ (.extent x .channel) fun channel =>
    .bind _ _ (halong .height) fun height => .bind _ _ (halong .width) fun width => .ok _

end RefusedFor

/-! Along an axis, the operators infer what the sweeps of their windows give over the integers. -/

theorem inferAlong_of_exact {α : Type} (name : String) (x : Tensor) (axis : SpatialAxis)
    (infer exactly : Extent → Except ShapeIssue α) (h : ∀ input, infer input = exactly input) :
    inferAlong name x axis infer =
      x.extent axis.toAxis >>= fun input =>
        (exactly input).mapError (.incompatibleShape name) := by
  rw [← funext h]
  rfl

theorem Pooling.pooledAlong_eq (pooling : Pooling) (name : String) (x : Tensor)
    (axis : SpatialAxis) :
    pooling.pooledAlong name x axis =
      x.extent axis.toAxis >>= fun input =>
        ((pooling.window.along axis).pooledExactly axis input).mapError
          (.incompatibleShape name) :=
  inferAlong_of_exact name x axis _ _ (Sweep.pooled_eq _ axis)

theorem Convolution.convolvedAlong_eq (convolution : Convolution) (name : String) (x : Tensor)
    (axis : SpatialAxis) :
    convolution.convolvedAlong name x axis =
      x.extent axis.toAxis >>= fun input =>
        ((convolution.window.along axis).convolvedExactly (convolution.dilatedAlong axis) axis
          input).mapError (.incompatibleShape name) :=
  inferAlong_of_exact name x axis _ _ (Sweep.convolved_eq _ _ axis)

theorem Deconvolution.expandedAlong_eq (deconvolution : Deconvolution) (name : String) (x : Tensor)
    (axis : SpatialAxis) :
    deconvolution.expandedAlong name x axis =
      x.extent axis.toAxis >>= fun input =>
        (Extent.ofInferred axis ((deconvolution.window.along axis).expansion input)).mapError
          (.incompatibleShape name) :=
  inferAlong_of_exact name x axis _ _ (Sweep.expanded_eq _ axis)

namespace Parameters

/-- The issues that an operator can raise. Only a transposed convolution can lose all its extent to
the padding. -/
def CanRaise (parameters : Parameters) : ShapeIssue → Prop
  | .overflow _ => False
  | .extentNotPositive _ _ => ∃ settings, parameters = .deconvolution settings
  | _ => True

theorem refusedFor_infer (parameters : Parameters) (name : String) (x w : Tensor) :
    RefusedFor parameters.CanRaise (parameters.infer name x w) := by
  cases parameters with
  | pooling settings =>
    refine .infer _ x (.pooling settings name x ?_)
    intro axis input issue h
    rcases Sweep.pooled_error_cases _ axis input issue h with rfl | ⟨-, rfl⟩ <;> trivial
  | convolution settings =>
    refine .infer _ x (.weightedImage name x w _ _ trivial (fun _ => trivial) (fun _ _ => trivial) ?_)
    intro axis input issue h
    rcases Sweep.convolved_error_cases _ _ axis input issue h with rfl | ⟨-, rfl⟩ <;> trivial
  | deconvolution settings =>
    refine .infer _ x (.weightedImage name x w _ _ trivial (fun _ => trivial) (fun _ _ => trivial) ?_)
    intro axis input issue h
    rcases Sweep.expanded_error_cases _ axis input issue h with rfl | rfl
    · exact ⟨settings, rfl⟩
    · trivial
  | logSoftmax settings =>
    refine .bind _ _ ?_ fun place => .ok _
    intro name issue herror
    unfold Layout.position at herror
    split at herror <;> cases herror

end Parameters

namespace Graph

theorem refusedFor_boundTensors (graph : Graph) (node : Node) (slots : List String)
    (found : NameMap Tensor) (P : ShapeIssue → Prop) :
    RefusedFor P (graph.boundTensors node slots found) := by
  intro name issue herror
  rcases graph.boundTensors_error_cases node slots found _ herror with ⟨slot, h⟩ | ⟨v, h⟩
  · cases h
  · cases h

/-- An operator is executed with no issue other than those that its inference raises. -/
theorem refusedFor_execute (graph : Graph) (operator : OperatorId) (node : Node)
    (parameters : Parameters) (P : ShapeIssue → Prop)
    (hinfer : ∀ name x w, RefusedFor P (parameters.infer name x w))
    (hnode : graph.nodeAt operator = .ok node) (hoperator : node.operator = parameters.operator) :
    RefusedFor P (graph.execute operator).answer := by
  intro name issue herror
  cases hfrozen : node.frozen with
  | true => simp [execute, hnode, hfrozen, Outcome.of] at herror
  | false =>
    cases hinputs : graph.boundTensors node node.operator.slots ∅ with
    | error cause =>
      simp only [execute, hnode, hfrozen, hinputs, Outcome.of] at herror
      cases herror
      exact graph.refusedFor_boundTensors node _ ∅ _ name issue hinputs
    | ok inputs =>
      obtain ⟨x, w, -, -, hrecord⟩ :=
        graph.record_of_boundTensors node parameters inputs hoperator hinputs
      rw [graph.execute_eq_runNode operator node inputs hnode hfrozen hinputs] at herror
      cases hresult : parameters.infer node.name x w with
      | error cause =>
        rw [hresult] at hrecord
        rw [graph.runNode_of_record_error operator node inputs cause hrecord] at herror
        cases herror
        exact hinfer node.name x w name issue hresult
      | ok inference =>
        rw [hresult] at hrecord
        rw [(graph.runNode_of_record_ok operator node inputs _ hrecord).1] at herror
        cases herror

theorem execute_refusedFor (graph : Graph) (operator : OperatorId) (node : Node)
    (parameters : Parameters) (hnode : graph.nodeAt operator = .ok node)
    (hoperator : node.operator = parameters.operator) :
    RefusedFor parameters.CanRaise (graph.execute operator).answer :=
  graph.refusedFor_execute operator node parameters _ parameters.refusedFor_infer hnode hoperator

/-- A transposed convolution whose padding takes more than it reaches on three positions. -/
def shrinking : Deconvolution where
  window := ⟨Convolution.undilated, Convolution.undilated, .both { val := 2 }⟩

/-- Pooling over a padding that leads to the greatest extent along a height of three, but too far
along a width of five. -/
def smothered : Parameters :=
  .pooling ⟨.max,
    ⟨Convolution.undilated, Convolution.undilated, .both { val := 0x7ffffffffffffffe }⟩⟩

/-- Every value of window arithmetic fits in 128 bits, and the extents inferred along a sweep, and
so along an axis of an operator's input, are the exact ones. No execution of a built-in operator is
refused for an overflow, and only those of transposed convolutions are refused for an extent that is
not positive. -/
theorem execute_exact :
    (∀ (sweep : Sweep) (kernel : Extent) (axis : SpatialAxis) (input : Extent),
      sweep.Fits kernel input ∧
      sweep.pooled axis input = sweep.pooledExactly axis input ∧
      sweep.convolved kernel axis input = sweep.convolvedExactly kernel axis input ∧
      sweep.expanded axis input = Extent.ofInferred axis (sweep.expansion input)) ∧
    (∀ (name : String) (x : Tensor) (axis : SpatialAxis),
      (∀ pooling : Pooling, pooling.pooledAlong name x axis =
        x.extent axis.toAxis >>= fun input =>
          ((pooling.window.along axis).pooledExactly axis input).mapError
            (.incompatibleShape name)) ∧
      (∀ convolution : Convolution, convolution.convolvedAlong name x axis =
        x.extent axis.toAxis >>= fun input =>
          ((convolution.window.along axis).convolvedExactly (convolution.dilatedAlong axis) axis
            input).mapError (.incompatibleShape name)) ∧
      ∀ deconvolution : Deconvolution, deconvolution.expandedAlong name x axis =
        x.extent axis.toAxis >>= fun input =>
          (Extent.ofInferred axis ((deconvolution.window.along axis).expansion input)).mapError
            (.incompatibleShape name)) ∧
    (∀ (graph : Graph) (operator : OperatorId) (node : Node) (parameters : Parameters),
      graph.nodeAt operator = .ok node → node.operator = parameters.operator →
        ∀ name issue, (graph.execute operator).answer = .error (.incompatibleShape name issue) →
          (∀ axis, issue ≠ .overflow axis) ∧
          ∀ value axis, issue = .extentNotPositive value axis →
            ∃ settings, parameters = .deconvolution settings) ∧
    ∃ graph operator node settings name value axis, Reachable graph ∧
      graph.nodeAt operator = .ok node ∧
      node.operator = (Parameters.deconvolution settings).operator ∧
      (graph.execute operator).answer =
        .error (.incompatibleShape name (.extentNotPositive value axis)) := by
  refine ⟨?_, ?_, ?_, ?_⟩
  · intro sweep kernel axis input
    exact ⟨sweep.fits kernel input, sweep.pooled_eq axis input,
      sweep.convolved_eq kernel axis input, sweep.expanded_eq axis input⟩
  · intro name x axis
    exact ⟨fun pooling => pooling.pooledAlong_eq name x axis,
      fun convolution => convolution.convolvedAlong_eq name x axis,
      fun deconvolution => deconvolution.expandedAlong_eq name x axis⟩
  · intro graph operator node parameters hnode hoperator name issue herror
    have hraised :=
      graph.execute_refusedFor operator node parameters hnode hoperator name issue herror
    constructor
    · rintro axis rfl
      exact hraised
    · rintro value axis rfl
      exact hraised
  · exact ⟨placed (.deconvolution shrinking) picture palette, ⟨⟨0⟩, 0⟩, _, shrinking,
      "Deconvolution2D0", -1, .height, Reachable.performAll _ (.new ⟨0⟩) _, rfl, rfl, rfl⟩

theorem execute_exact_smothered :
    ((placed smothered picture palette).execute ⟨⟨0⟩, 0⟩).answer = .error (.incompatibleShape
      "MaxPooling2D0" (.extentTooLarge 0x10000000000000001 .width)) ∧
      ShapeIssue.extentTooLarge 0x10000000000000001 .width ≠ .overflow .width := by
  have hanswer : ((placed smothered picture palette).execute ⟨⟨0⟩, 0⟩).answer =
      .error (.incompatibleShape "MaxPooling2D0" (.extentTooLarge 0x10000000000000001 .width)) :=
    rfl
  obtain ⟨-, -, hissues, -⟩ := execute_exact
  exact ⟨hanswer, (hissues _ _ _ smothered rfl rfl _ _ hanswer).1 .width⟩

end Graph

end AxisGraph
