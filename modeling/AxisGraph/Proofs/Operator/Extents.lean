import AxisGraph.Proofs.Graph.Builtin

/-!
Images through the operators that have a window. An image that suits the operator is refused only
for what happens along one of its spatial axes. Otherwise the output has the layout and the batch of
the image, and along each spatial axis the extent that is inferred there.
-/

namespace AxisGraph

theorem Spatial.exists_along {α : Type} {P : SpatialAxis → α → Prop} (h : ∀ axis, ∃ a, P axis a) :
    ∃ pair : Spatial α, ∀ axis, P axis (pair.along axis) := by
  obtain ⟨height, hheight⟩ := h .height
  obtain ⟨width, hwidth⟩ := h .width
  exact ⟨⟨height, width⟩, SpatialAxis.forall_iff.mpr ⟨hheight, hwidth⟩⟩

def ImageExtents.spatial (extents : ImageExtents) : Spatial Extent :=
  ⟨extents.height, extents.width⟩

namespace Tensor

/-- The tensor has these extents along the spatial axes. -/
def Spans (tensor : Tensor) (extents : Spatial Extent) : Prop :=
  ∀ axis : SpatialAxis, tensor.extent? axis.toAxis = some (extents.along axis)

/-- The other tensor has the layout and the batch of this one, with these extents along the spatial
axes and this number of channels. -/
structure Reframed (tensor : Tensor) (spatial : Spatial Extent) (channels : Extent)
    (other : Tensor) : Prop where
  layout_eq : other.layout = tensor.layout
  batch_eq : other.extent? .batch = tensor.extent? .batch
  spans : other.Spans spatial
  channels_eq : other.extent? .channel = some channels

/-- What a first change of the extents does is overwritten by a second one. -/
theorem Reframed.trans {tensor between other : Tensor} {first second : Spatial Extent}
    {channels channels' : Extent} (h : tensor.Reframed first channels between)
    (h' : between.Reframed second channels' other) : tensor.Reframed second channels' other :=
  ⟨h'.layout_eq.trans h.layout_eq, h'.batch_eq.trans h.batch_eq, h'.spans, h'.channels_eq⟩

theorem Spans.unique {tensor : Tensor} {extents others : Spatial Extent} (h : tensor.Spans extents)
    (h' : tensor.Spans others) : extents = others :=
  Spatial.ext_along fun axis => Option.some.inj ((h axis).symm.trans (h' axis))

/-- The weight has the axes of an image batch, the kernel, and a channel for each channel of the
tensor. -/
structure Suits (w : Tensor) (ksize : Spatial Size) (tensor : Tensor) : Prop where
  layout : w.layout.IsPermutation .nhwc
  kernel : w.Spans (ksize.map Size.toExtent)
  channels : w.extent? .channel = tensor.extent? .channel

theorem exists_extent_of_image (tensor : Tensor) (himage : tensor.layout.IsPermutation .nhwc)
    (axis : Axis) (hmem : axis ∈ Layout.nhwc) : ∃ extent, tensor.extent? axis = some extent :=
  (tensor.exists_extent_iff axis).mpr ((Layout.isPermutation_iff.mp himage axis).mpr hmem)

theorem exists_spans (tensor : Tensor) (himage : tensor.layout.IsPermutation .nhwc) :
    ∃ extents, tensor.Spans extents := by
  have hextents : ∀ axis : SpatialAxis, ∃ extent, tensor.extent? axis.toAxis = some extent := by
    intro axis
    exact tensor.exists_extent_of_image himage axis.toAxis (by cases axis <;> decide)
  exact Spatial.exists_along hextents

end Tensor

theorem inferAlong_of_spans {α : Type} (name : String) (x : Tensor) (inputs : Spatial Extent)
    (axis : SpatialAxis) (infer : Extent → Except ShapeIssue α) (hspans : x.Spans inputs) :
    inferAlong name x axis infer =
      (infer (inputs.along axis)).mapError (.incompatibleShape name) := by
  unfold inferAlong
  rw [(x.extent_eq_ok_iff axis.toAxis _).mpr (hspans axis)]
  rfl

/-- An image can be arranged like any input that holds the axes of an image batch. -/
theorem Image.exists_inference (image : Image) (x : Tensor)
    (himage : x.layout.IsPermutation .nhwc)
    (hbatch : x.extent? .batch = some image.extents.batch) :
    ∃ inference, image.infer x = .ok inference ∧
      x.Reframed image.extents.spatial image.extents.channel inference.y ∧
      inference.ignored = image.ignored := by
  let inference : Inference := ⟨image.extents.tensor.arrange x.layout,
    x.layout.axes.filter fun axis => !axis.isSpatial, image.ignored⟩
  have hy : image.extents.tensor.changeLayout x.layout = .ok inference.y := if_pos himage.symm
  have hinfer : image.infer x = .ok inference :=
    (image.infer_eq_ok_iff x inference).mpr ⟨hy, rfl, rfl⟩
  have hextents := image.extent?_infer x inference hinfer
  obtain ⟨-, hlayout, -⟩ := (Tensor.changeLayout_eq_ok_iff _ inference.y x.layout).mp hy
  refine ⟨inference, hinfer, ⟨hlayout, ?_, ?_, hextents .channel⟩, rfl⟩
  · exact (hextents .batch).trans hbatch.symm
  · exact SpatialAxis.forall_iff.mpr ⟨hextents .height, hextents .width⟩

/-- The output is arranged like the input, so the input holds the axes of an image batch. -/
theorem Image.isPermutation_of_infer (result : Except GraphError Image) (x : Tensor)
    (inference : Inference) (h : (result >>= fun image => image.infer x) = .ok inference) :
    x.layout.IsPermutation .nhwc := by
  obtain ⟨image, -, hinfer⟩ := (bind_eq_ok_iff _ _ inference).mp h
  obtain ⟨hy, -⟩ := (image.infer_eq_ok_iff x inference).mp hinfer
  exact ((Tensor.changeLayout_eq_ok_iff _ inference.y x.layout).mp hy).1.symm

/-- An inference along each spatial axis, height first. -/
def inferBoth {α : Type} (name : String) (x : Tensor)
    (infer : SpatialAxis → Extent → Except ShapeIssue α) : Except GraphError (Spatial α) := do
  let height ← inferAlong name x .height (infer .height)
  let width ← inferAlong name x .width (infer .width)
  return ⟨height, width⟩

/-- Both inferences succeed, or one of them fails and its issue is the cause. -/
theorem inferBoth_cases {α : Type} (name : String) (x : Tensor) (inputs : Spatial Extent)
    (infer : SpatialAxis → Extent → Except ShapeIssue α) (hspans : x.Spans inputs) :
    (∃ values, inferBoth name x infer = .ok values ∧
      ∀ axis, infer axis (inputs.along axis) = .ok (values.along axis)) ∨
    ∃ axis issue, inferBoth name x infer = .error (.incompatibleShape name issue) ∧
      infer axis (inputs.along axis) = .error issue := by
  unfold inferBoth
  rw [inferAlong_of_spans name x inputs .height _ hspans,
    inferAlong_of_spans name x inputs .width _ hspans]
  cases hheight : infer .height (inputs.along .height) with
  | error issue => exact Or.inr ⟨.height, issue, rfl, hheight⟩
  | ok height =>
    cases hwidth : infer .width (inputs.along .width) with
    | error issue => exact Or.inr ⟨.width, issue, rfl, hwidth⟩
    | ok width =>
      exact Or.inl ⟨⟨height, width⟩, rfl, SpatialAxis.forall_iff.mpr ⟨hheight, hwidth⟩⟩

theorem weightedImage_eq (name : String) (x w : Tensor) (ksize : Spatial Size)
    (infer : SpatialAxis → Extent → Except ShapeIssue Extent) :
    weightedImage name x w ksize infer = do
      let channel ← weightChannels name x w ksize
      let batch ← x.extent .batch
      let outputs ← inferBoth name x infer
      return ⟨⟨batch, outputs.height, outputs.width, channel⟩, []⟩ := by
  simp only [weightedImage, inferBoth, bind_assoc, pure_bind]

theorem Pooling.image_eq (pooling : Pooling) (name : String) (x : Tensor) :
    pooling.image name x = do
      let batch ← x.extent .batch
      let channel ← x.extent .channel
      let pooled ← inferBoth name x fun axis => (pooling.window.along axis).pooled axis
      return ⟨⟨batch, pooled.height.extent, pooled.width.extent, channel⟩, ignoredAxes pooled⟩ := by
  simp only [image, pooledAlong, inferBoth, bind_assoc, pure_bind]

theorem suits_of_weightedImage (name : String) (x w : Tensor) (ksize : Spatial Size)
    (infer : SpatialAxis → Extent → Except ShapeIssue Extent) (image : Image)
    (h : weightedImage name x w ksize infer = .ok image) : w.Suits ksize x := by
  obtain ⟨hweight, -⟩ := (weightedImage_eq_ok_iff name x w ksize infer image).mp h
  obtain ⟨hlayout, hheight, hwidth, ⟨channels, hinput, hexpected⟩, -⟩ :=
    (weightChannels_eq_ok_iff name x w ksize _).mp hweight
  exact ⟨hlayout, SpatialAxis.forall_iff.mpr ⟨hheight, hwidth⟩, hexpected.trans hinput.symm⟩

/-- What an operator with a weight infers from an image and a suitable weight. -/
theorem weightedImage_cases (name : String) (x w : Tensor) (ksize : Spatial Size)
    (infer : SpatialAxis → Extent → Except ShapeIssue Extent) (inputs : Spatial Extent)
    (himage : x.layout.IsPermutation .nhwc) (hsuits : w.Suits ksize x) (hspans : x.Spans inputs) :
    (∃ inference outputs channels,
      (weightedImage name x w ksize infer >>= fun image => image.infer x) = .ok inference ∧
      (∀ axis, infer axis (inputs.along axis) = .ok (outputs.along axis)) ∧
      w.extent? .batch = some channels ∧ x.Reframed outputs channels inference.y ∧
      inference.ignored = []) ∨
    ∃ axis issue, (weightedImage name x w ksize infer >>= fun image => image.infer x) =
        .error (.incompatibleShape name issue) ∧
      infer axis (inputs.along axis) = .error issue := by
  obtain ⟨channels, hchannels⟩ := w.exists_extent_of_image hsuits.layout .batch (by decide)
  obtain ⟨batch, hbatch⟩ := x.exists_extent_of_image himage .batch (by decide)
  obtain ⟨expected, hexpected⟩ := x.exists_extent_of_image himage .channel (by decide)
  have hweight : weightChannels name x w ksize = .ok channels :=
    (weightChannels_eq_ok_iff name x w ksize channels).mpr ⟨hsuits.layout, hsuits.kernel .height,
      hsuits.kernel .width, ⟨expected, hexpected, hsuits.channels.trans hexpected⟩, hchannels⟩
  rw [weightedImage_eq, hweight, (x.extent_eq_ok_iff .batch batch).mpr hbatch]
  rcases inferBoth_cases name x inputs infer hspans with
    ⟨outputs, hboth, hinfer⟩ | ⟨axis, issue, hboth, hissue⟩
  · let image : Image := ⟨⟨batch, outputs.height, outputs.width, channels⟩, []⟩
    obtain ⟨inference, hinference, hreframed, hignored⟩ :=
      image.exists_inference x himage hbatch
    rw [hboth]
    exact Or.inl ⟨inference, outputs, channels, hinference, hinfer, hchannels, hreframed, hignored⟩
  · rw [hboth]
    exact Or.inr ⟨axis, issue, rfl, hissue⟩

/-- What pooling infers from an image. -/
theorem Pooling.infer_cases (pooling : Pooling) (name : String) (x : Tensor)
    (inputs : Spatial Extent) (himage : x.layout.IsPermutation .nhwc) (hspans : x.Spans inputs) :
    (∃ inference channels, ∃ pooled : Spatial Sweep.Pooled,
      (pooling.image name x >>= fun image => image.infer x) = .ok inference ∧
      (∀ axis, (pooling.window.along axis).pooled axis (inputs.along axis) =
        .ok (pooled.along axis)) ∧
      x.extent? .channel = some channels ∧
      x.Reframed (pooled.map Sweep.Pooled.extent) channels inference.y ∧
      inference.ignored = ignoredAxes pooled) ∨
    ∃ axis issue, (pooling.image name x >>= fun image => image.infer x) =
        .error (.incompatibleShape name issue) ∧
      (pooling.window.along axis).pooled axis (inputs.along axis) = .error issue := by
  obtain ⟨batch, hbatch⟩ := x.exists_extent_of_image himage .batch (by decide)
  obtain ⟨channels, hchannels⟩ := x.exists_extent_of_image himage .channel (by decide)
  rw [pooling.image_eq, (x.extent_eq_ok_iff .batch batch).mpr hbatch,
    (x.extent_eq_ok_iff .channel channels).mpr hchannels]
  rcases inferBoth_cases name x inputs
    (fun axis => (pooling.window.along axis).pooled axis) hspans with
    ⟨pooled, hboth, hinfer⟩ | ⟨axis, issue, hboth, hissue⟩
  · let image : Image :=
      ⟨⟨batch, pooled.height.extent, pooled.width.extent, channels⟩, ignoredAxes pooled⟩
    obtain ⟨inference, hinference, hreframed, hignored⟩ :=
      image.exists_inference x himage hbatch
    rw [hboth]
    exact Or.inl ⟨inference, channels, pooled, hinference, hinfer, hchannels, hreframed, hignored⟩
  · rw [hboth]
    exact Or.inr ⟨axis, issue, rfl, hissue⟩

theorem Pooling.mem_ignoredAxes (pooled : Spatial Sweep.Pooled) (axis : SpatialAxis) :
    axis.toAxis ∈ ignoredAxes pooled ↔ (pooled.along axis).edgeIgnored = true := by
  unfold ignoredAxes
  rw [List.mem_map]
  constructor
  · rintro ⟨other, hmem, hother⟩
    have heq : other = axis := by cases other <;> cases axis <;> first | rfl | cases hother
    subst other
    exact (List.mem_filter.mp hmem).2
  · intro hignored
    exact ⟨axis, List.mem_filter.mpr ⟨SpatialAxis.mem_all axis, hignored⟩, rfl⟩

/-- A finding of the operator lists the axis among those whose edge is ignored. -/
def Node.Lists (node : Node) (axis : Axis) : Prop :=
  ∃ diagnostic ∈ node.diagnostics, axis ∈ diagnostic.axes

theorem Node.lists_iff (node : Node) (id : OperatorId) (axes : List Axis) (axis : Axis)
    (h : node.diagnostics = Inference.diagnostics id axes) : node.Lists axis ↔ axis ∈ axes := by
  unfold Lists
  rw [h]
  cases axes with
  | nil => simp [Inference.diagnostics]
  | cons first rest => simp [Inference.diagnostics, Diagnostic.axes]

namespace Graph

variable {graph : Graph} {operator : OperatorId} {node : Node} {x w : Tensor}
  {inputs : Spatial Extent}

/-- Pooling of an image publishes the pooled extents and lists the axes whose edge is ignored, or it
is refused for what happens along an axis. -/
theorem Feeds.pooling_cases {pooling : Pooling}
    (h : graph.Feeds operator node (.pooling pooling) x w)
    (himage : x.layout.IsPermutation .nhwc) (hspans : x.Spans inputs) :
    (∃ y after channels, ∃ pooled : Spatial Sweep.Pooled, graph.Publishes operator y after ∧
      (∀ axis, (pooling.window.along axis).pooled axis (inputs.along axis) =
        .ok (pooled.along axis)) ∧
      x.extent? .channel = some channels ∧
      x.Reframed (pooled.map Sweep.Pooled.extent) channels y ∧
      after.diagnostics = Inference.diagnostics operator (Pooling.ignoredAxes pooled)) ∨
    ∃ axis issue, (graph.execute operator).answer = .error (.incompatibleShape node.name issue) ∧
      (pooling.window.along axis).pooled axis (inputs.along axis) = .error issue := by
  rcases pooling.infer_cases node.name x inputs himage hspans with
    ⟨inference, channels, pooled, hinfer, hpooled, hchannels, hreframed, hignored⟩ |
    ⟨axis, issue, hinfer, hissue⟩
  · obtain ⟨after, hpublishes, -, hdiagnostics⟩ := h.publishes_of_infer inference hinfer
    rw [hignored] at hdiagnostics
    exact Or.inl ⟨inference.y, after, channels, pooled, hpublishes, hpooled, hchannels, hreframed,
      hdiagnostics⟩
  · exact Or.inr ⟨axis, issue, h.answer_of_infer_error _ hinfer, hissue⟩

/-- An operator with a suitable weight publishes the extents that it infers, or it is refused for
what happens along an axis. -/
theorem Feeds.weighted_cases {parameters : Parameters} {ksize : Spatial Size}
    (h : graph.Feeds operator node parameters x w)
    (infer : SpatialAxis → Extent → Except ShapeIssue Extent)
    (hinfer : parameters.infer node.name x w =
      (weightedImage node.name x w ksize infer >>= fun image => image.infer x))
    (himage : x.layout.IsPermutation .nhwc) (hsuits : w.Suits ksize x) (hspans : x.Spans inputs) :
    (∃ y after channels, ∃ outputs : Spatial Extent, graph.Publishes operator y after ∧
      (∀ axis, infer axis (inputs.along axis) = .ok (outputs.along axis)) ∧
      w.extent? .batch = some channels ∧ x.Reframed outputs channels y ∧
      after.diagnostics = []) ∨
    ∃ axis issue, (graph.execute operator).answer = .error (.incompatibleShape node.name issue) ∧
      infer axis (inputs.along axis) = .error issue := by
  rcases weightedImage_cases node.name x w ksize infer inputs himage hsuits hspans with
    ⟨inference, outputs, channels, hresult, houtputs, hchannels, hreframed, hignored⟩ |
    ⟨axis, issue, hresult, hissue⟩
  · obtain ⟨after, hpublishes, -, hdiagnostics⟩ :=
      h.publishes_of_infer inference (hinfer.trans hresult)
    rw [hignored] at hdiagnostics
    exact Or.inl ⟨inference.y, after, channels, outputs, hpublishes, houtputs, hchannels,
      hreframed, hdiagnostics⟩
  · exact Or.inr ⟨axis, issue, h.answer_of_infer_error _ (hinfer.trans hresult), hissue⟩

/-- What a published output tells about an executed pooling. -/
theorem Feeds.exists_pooled {pooling : Pooling} {y : Tensor} {after : Node}
    (h : graph.Feeds operator node (.pooling pooling) x w)
    (hpublishes : graph.Publishes operator y after) :
    ∃ inputs channels, ∃ pooled : Spatial Sweep.Pooled, x.Spans inputs ∧
      (∀ axis, (pooling.window.along axis).pooled axis (inputs.along axis) =
        .ok (pooled.along axis)) ∧
      x.Reframed (pooled.map Sweep.Pooled.extent) channels y ∧
      ∀ axis : SpatialAxis, after.Lists axis.toAxis ↔ (pooled.along axis).edgeIgnored = true := by
  obtain ⟨inference, hinfer, -⟩ := h.exists_inference y after hpublishes
  have himage := Image.isPermutation_of_infer _ x inference hinfer
  obtain ⟨inputs, hspans⟩ := x.exists_spans himage
  rcases h.pooling_cases himage hspans with
    ⟨y', after', channels, pooled, hpublishes', hpooled, -, hreframed, hdiagnostics⟩ |
    ⟨axis, issue, hanswer, -⟩
  · obtain ⟨rfl, rfl⟩ := hpublishes.unique _ _ _ _ _ _ hpublishes'
    refine ⟨inputs, channels, pooled, hspans, hpooled, hreframed, fun axis => ?_⟩
    rw [after.lists_iff operator _ axis.toAxis hdiagnostics, Pooling.mem_ignoredAxes]
  · obtain ⟨⟨v, hok, -⟩, -⟩ := hpublishes
    rw [hanswer] at hok
    cases hok

/-- What a published output tells about an executed operator with a weight. -/
theorem Feeds.exists_outputs {parameters : Parameters} {ksize : Spatial Size} {y : Tensor}
    {after : Node} (h : graph.Feeds operator node parameters x w)
    (hpublishes : graph.Publishes operator y after)
    (infer : SpatialAxis → Extent → Except ShapeIssue Extent)
    (hinfer : parameters.infer node.name x w =
      (weightedImage node.name x w ksize infer >>= fun image => image.infer x)) :
    x.layout.IsPermutation .nhwc ∧ ∃ inputs outputs channels, x.Spans inputs ∧
      (∀ axis, infer axis (inputs.along axis) = .ok (outputs.along axis)) ∧
      x.Reframed outputs channels y := by
  obtain ⟨inference, hresult, -⟩ := h.exists_inference y after hpublishes
  rw [hinfer] at hresult
  have himage := Image.isPermutation_of_infer _ x inference hresult
  obtain ⟨image, hweighted, -⟩ := (bind_eq_ok_iff _ _ inference).mp hresult
  have hsuits := suits_of_weightedImage node.name x w ksize infer image hweighted
  obtain ⟨inputs, hspans⟩ := x.exists_spans himage
  rcases h.weighted_cases infer hinfer himage hsuits hspans with
    ⟨y', after', channels, outputs, hpublishes', houtputs, -, hreframed, -⟩ |
    ⟨axis, issue, hanswer, -⟩
  · obtain ⟨rfl, rfl⟩ := hpublishes.unique _ _ _ _ _ _ hpublishes'
    exact ⟨himage, inputs, outputs, channels, hspans, houtputs, hreframed⟩
  · obtain ⟨⟨v, hok, -⟩, -⟩ := hpublishes
    rw [hanswer] at hok
    cases hok

end Graph

end AxisGraph
