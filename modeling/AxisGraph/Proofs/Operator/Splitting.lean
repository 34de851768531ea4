import AxisGraph.Proofs.Graph.Builtin

/-!
Built-in operators on the parts of a tensor. Along an axis that an operator marks, what it infers
from a part is the part of what it infers from the whole, with one exception: a weight has a channel
for each channel of the input, so an operator with a weight takes no part of the channels although
it marks them.
-/

namespace AxisGraph

/-- The extents with another one on an axis. -/
def ImageExtents.resize (extents : ImageExtents) (axis : Axis) (part : Extent) : ImageExtents where
  batch := if Axis.batch = axis then part else extents.batch
  height := if Axis.height = axis then part else extents.height
  width := if Axis.width = axis then part else extents.width
  channel := if Axis.channel = axis then part else extents.channel

theorem ImageExtents.tensor_resize (extents : ImageExtents) (axis : Axis) (part : Extent) :
    (extents.resize axis part).tensor = extents.tensor.resize axis part :=
  rfl

theorem inferAlong_resize {α : Type} (name name' : String) (x : Tensor) (axis : Axis)
    (part : Extent) (spatial : SpatialAxis) (infer : Extent → Except ShapeIssue α) (value : α)
    (hne : spatial.toAxis ≠ axis) (h : inferAlong name x spatial infer = .ok value) :
    inferAlong name' (x.resize axis part) spatial infer = .ok value := by
  obtain ⟨input, hinput, hvalue⟩ := (inferAlong_eq_ok_iff name x spatial infer value).mp h
  have hsame := x.extent?_resize_of_ne axis spatial.toAxis part hne
  exact (inferAlong_eq_ok_iff name' _ spatial infer value).mpr
    ⟨input, hsame.trans hinput, hvalue⟩

theorem weightedImage_resize (name name' : String) (x w : Tensor) (ksize : Spatial Size)
    (infer : SpatialAxis → Extent → Except ShapeIssue Extent) (image : Image) (part : Extent)
    (h : weightedImage name x w ksize infer = .ok image) :
    weightedImage name' (x.resize .batch part) w ksize infer =
      .ok { image with extents := image.extents.resize .batch part } := by
  obtain ⟨hchannel, hbatch, hheight, hwidth, hignored⟩ :=
    (weightedImage_eq_ok_iff name x w ksize infer image).mp h
  obtain ⟨hlayout, hkernel, hkernel', ⟨channels, hinput, hexpected⟩, houtputs⟩ :=
    (weightChannels_eq_ok_iff name x w ksize _).mp hchannel
  have hsame := x.extent?_resize_of_ne .batch .channel part (by decide)
  have hfits : weightChannels name' (x.resize .batch part) w ksize = .ok image.extents.channel :=
    (weightChannels_eq_ok_iff name' _ w ksize _).mpr
      ⟨hlayout, hkernel, hkernel', ⟨channels, hsame.trans hinput, hexpected⟩, houtputs⟩
  refine (weightedImage_eq_ok_iff name' _ w ksize infer _).mpr ⟨hfits, ?_, ?_, ?_, hignored⟩
  · exact x.extent?_resize_self .batch _ part hbatch
  · exact inferAlong_resize name name' x .batch part .height _ _ (by decide) hheight
  · exact inferAlong_resize name name' x .batch part .width _ _ (by decide) hwidth

/-- No part of the channels fits a weight that fits all of them. -/
theorem weightChannels_resize_channel (name name' : String) (x w : Tensor) (ksize : Spatial Size)
    (outputs part whole : Extent) (h : weightChannels name x w ksize = .ok outputs)
    (hwhole : x.extent? .channel = some whole) (hne : part ≠ whole) :
    weightChannels name' (x.resize .channel part) w ksize =
      .error (.incompatibleShape name' (.channels part whole)) := by
  obtain ⟨hlayout, hheight, hwidth, ⟨channels, hinput, hexpected⟩, -⟩ :=
    (weightChannels_eq_ok_iff name x w ksize outputs).mp h
  rw [hwhole] at hinput
  cases hinput
  have hpart := x.extent?_resize_self .channel whole part hwhole
  rw [← Tensor.extent_eq_ok_iff] at hheight hwidth hexpected hpart
  unfold weightChannels
  rw [if_pos hlayout, hheight, hwidth, hpart, hexpected]
  have hkernel : (⟨ksize.height.toExtent, ksize.width.toExtent⟩ : Spatial Extent) =
      ksize.map Size.toExtent := rfl
  simp only [bind, Except.bind, hkernel, ↓reduceIte, if_neg hne]

theorem Pooling.image_resize (pooling : Pooling) (name name' : String) (x : Tensor) (image : Image)
    (axis : Axis) (part : Extent) (haxis : axis = .batch ∨ axis = .channel)
    (h : pooling.image name x = .ok image) :
    pooling.image name' (x.resize axis part) =
      .ok { image with extents := image.extents.resize axis part } := by
  obtain ⟨hbatch, hchannel, pooled, hheight, hwidth, hheight', hwidth', hignored⟩ :=
    (pooling.image_eq_ok_iff name x image).mp h
  have hspatial : ∀ spatial : SpatialAxis, spatial.toAxis ≠ axis := by
    intro spatial
    rcases haxis with rfl | rfl <;> cases spatial <;> decide
  have hresized : ∀ spatial value, pooling.pooledAlong name x spatial = .ok value →
      pooling.pooledAlong name' (x.resize axis part) spatial = .ok value := by
    intro spatial value hvalue
    exact inferAlong_resize name name' x axis part spatial _ value (hspatial spatial) hvalue
  refine (pooling.image_eq_ok_iff name' _ _).mpr ⟨?_, ?_, pooled, hresized .height _ hheight,
    hresized .width _ hwidth, ?_, ?_, hignored⟩
  · rw [x.extent?_resize, hbatch]
    rfl
  · rw [x.extent?_resize, hchannel]
    rfl
  · exact (if_neg (hspatial .height)).trans hheight'
  · exact (if_neg (hspatial .width)).trans hwidth'

/-- The axes that an operator on images marks. -/
theorem Image.mem_marks (image : Image) (x : Tensor) (inference : Inference)
    (h : image.infer x = .ok inference) (axis : Axis) (hmem : axis ∈ inference.marks) :
    axis = .batch ∨ axis = .channel := by
  obtain ⟨hy, hmarks, -⟩ := (image.infer_eq_ok_iff x inference).mp h
  obtain ⟨hperm, -, -⟩ := (Tensor.changeLayout_eq_ok_iff _ inference.y x.layout).mp hy
  rw [hmarks] at hmem
  obtain ⟨haxis, hspatial⟩ := List.mem_filter.mp hmem
  have hnhwc : axis ∈ Layout.nhwc := (Layout.isPermutation_iff.mp hperm axis).mpr haxis
  cases axis with
  | batch => exact Or.inl rfl
  | channel => exact Or.inr rfl
  | height => cases hspatial
  | width => cases hspatial
  | time => exact absurd hnhwc (by decide)

theorem Image.infer_resize (image : Image) (x : Tensor) (inference : Inference) (axis : Axis)
    (part : Extent) (h : image.infer x = .ok inference) :
    { image with extents := image.extents.resize axis part }.infer (x.resize axis part) =
      .ok { inference with y := inference.y.resize axis part } := by
  obtain ⟨hy, hmarks, hignored⟩ := (image.infer_eq_ok_iff x inference).mp h
  refine (Image.infer_eq_ok_iff _ _ _).mpr ⟨?_, ?_, hignored⟩
  · rw [x.layout_resize, ImageExtents.tensor_resize]
    exact Tensor.changeLayout_resize _ inference.y x.layout axis part hy
  · rw [x.layout_resize]
    exact hmarks

/-- The inference from the resized input resizes the output and changes nothing else. The output has
the extent of the input there. -/
structure Inference.Follows (axis : Axis) (part : Extent) (x : Tensor) (inference : Inference)
    (result : Except GraphError Inference) : Prop where
  result_eq : result = .ok { inference with y := inference.y.resize axis part }
  extent_eq : inference.y.extent? axis = x.extent? axis

theorem Pooling.infer_follows (pooling : Pooling) (name name' : String) (x : Tensor) (axis : Axis)
    (part : Extent) (inference : Inference)
    (h : (pooling.image name x >>= fun image => image.infer x) = .ok inference)
    (hmarked : axis ∈ inference.marks) :
    inference.Follows axis part x (pooling.image name' (x.resize axis part) >>= fun image =>
      image.infer (x.resize axis part)) := by
  obtain ⟨image, himage, hinfer⟩ := (bind_eq_ok_iff _ _ inference).mp h
  have haxis := image.mem_marks x inference hinfer axis hmarked
  obtain ⟨hbatch, hchannel, -⟩ := (pooling.image_eq_ok_iff name x image).mp himage
  constructor
  · rw [pooling.image_resize name name' x image axis part haxis himage]
    exact image.infer_resize x inference axis part hinfer
  · rw [image.extent?_infer x inference hinfer axis]
    rcases haxis with rfl | rfl
    · exact hbatch.symm
    · exact hchannel.symm

theorem weightedImage_follows (name name' : String) (x w : Tensor) (ksize : Spatial Size)
    (infer : SpatialAxis → Extent → Except ShapeIssue Extent) (axis : Axis) (part : Extent)
    (inference : Inference)
    (h : (weightedImage name x w ksize infer >>= fun image => image.infer x) = .ok inference)
    (hmarked : axis ∈ inference.marks) (hne : axis ≠ .channel) :
    inference.Follows axis part x (weightedImage name' (x.resize axis part) w ksize infer >>=
      fun image => image.infer (x.resize axis part)) := by
  obtain ⟨image, himage, hinfer⟩ := (bind_eq_ok_iff _ _ inference).mp h
  have haxis : axis = .batch := (image.mem_marks x inference hinfer axis hmarked).resolve_right hne
  subst axis
  obtain ⟨-, hbatch, -⟩ := (weightedImage_eq_ok_iff name x w ksize infer image).mp himage
  constructor
  · rw [weightedImage_resize name name' x w ksize infer image part himage]
    exact image.infer_resize x inference .batch part hinfer
  · rw [image.extent?_infer x inference hinfer .batch]
    exact hbatch.symm

theorem LogSoftmax.infer_follows (softmax : LogSoftmax) (x : Tensor) (axis : Axis) (part : Extent)
    (inference : Inference) (h : softmax.infer x = .ok inference) :
    inference.Follows axis part x (softmax.infer (x.resize axis part)) := by
  obtain ⟨hmem, -⟩ := (softmax.infer_eq_ok_iff x inference).mp h
  have hmem' : softmax.axis ∈ (x.resize axis part).layout := by rwa [x.layout_resize]
  rw [softmax.infer_of_mem x hmem] at h
  cases h
  constructor
  · rw [softmax.infer_of_mem _ hmem', x.layout_resize]
  · rfl

theorem weightedImage_refuses (name name' : String) (x w : Tensor) (ksize : Spatial Size)
    (infer : SpatialAxis → Extent → Except ShapeIssue Extent) (inference : Inference)
    (part whole : Extent)
    (h : (weightedImage name x w ksize infer >>= fun image => image.infer x) = .ok inference)
    (hwhole : x.extent? .channel = some whole) (hne : part ≠ whole) :
    (weightedImage name' (x.resize .channel part) w ksize infer >>= fun image =>
      image.infer (x.resize .channel part)) =
        .error (.incompatibleShape name' (.channels part whole)) := by
  obtain ⟨image, himage, -⟩ := (bind_eq_ok_iff _ _ inference).mp h
  obtain ⟨hchannel, -⟩ := (weightedImage_eq_ok_iff name x w ksize infer image).mp himage
  have hrefused :=
    weightChannels_resize_channel name name' x w ksize _ part whole hchannel hwhole hne
  unfold weightedImage
  rw [hrefused]
  rfl

namespace Parameters

/-- Along a marked axis that is not the channel axis of a weight, an operator infers from each part
of its input the part of its output. -/
theorem infer_follows (parameters : Parameters) (name name' : String) (x w : Tensor) (axis : Axis)
    (part : Extent) (inference : Inference) (h : parameters.infer name x w = .ok inference)
    (hmarked : axis ∈ inference.marks) (hfree : ¬ (parameters.Weighted ∧ axis = .channel)) :
    inference.Follows axis part x (parameters.infer name' (x.resize axis part) w) := by
  cases parameters with
  | pooling settings => exact settings.infer_follows name name' x axis part inference h hmarked
  | convolution settings =>
    have hne : axis ≠ .channel := fun heq => hfree ⟨trivial, heq⟩
    exact weightedImage_follows name name' x w settings.window.ksize _ axis part inference h
      hmarked hne
  | deconvolution settings =>
    have hne : axis ≠ .channel := fun heq => hfree ⟨trivial, heq⟩
    exact weightedImage_follows name name' x w settings.window.ksize _ axis part inference h
      hmarked hne
  | logSoftmax settings => exact settings.infer_follows x axis part inference h

/-- An operator with a weight takes no part of the channels. -/
theorem infer_resize_channel (parameters : Parameters) (name name' : String) (x w : Tensor)
    (part whole : Extent) (inference : Inference)
    (h : parameters.infer name x w = .ok inference) (hweighted : parameters.Weighted)
    (hwhole : x.extent? .channel = some whole) (hne : part ≠ whole) :
    parameters.infer name' (x.resize .channel part) w =
      .error (.incompatibleShape name' (.channels part whole)) := by
  cases parameters with
  | pooling settings => exact hweighted.elim
  | convolution settings =>
    exact weightedImage_refuses name name' x w settings.window.ksize _ inference part whole h
      hwhole hne
  | deconvolution settings =>
    exact weightedImage_refuses name name' x w settings.window.ksize _ inference part whole h
      hwhole hne
  | logSoftmax settings => exact hweighted.elim

end Parameters

namespace Graph

/-- An operator that has marked an axis is executed on two parts of its input along that axis. The
outputs are the parts of its output, unless the operator has a weight and the parts are made of the
channels; then both executions fail. -/
theorem execute_split (graph first second : Graph) (operator id₁ id₂ : OperatorId)
    (node node₁ node₂ after : Node) (parameters : Parameters) (x w y : Tensor) (axis : Axis)
    (whole part rest : Extent) (hfeeds : graph.Feeds operator node parameters x w)
    (hpublishes : graph.Publishes operator y after) (hmarked : axis ∈ after.tensorwiseAxes)
    (hwhole : x.extent? axis = some whole) (hsum : part.val + rest.val = whole.val)
    (hfirst : first.Feeds id₁ node₁ parameters (x.resize axis part) w)
    (hsecond : second.Feeds id₂ node₂ parameters (x.resize axis rest) w) :
    if parameters.Weighted ∧ axis = .channel then
      (first.execute id₁).answer = .error (.incompatibleShape node₁.name (.channels part whole)) ∧
        (second.execute id₂).answer =
          .error (.incompatibleShape node₂.name (.channels rest whole))
    else
      ∃ y₁ y₂ after₁ after₂, first.Publishes id₁ y₁ after₁ ∧ second.Publishes id₂ y₂ after₂ ∧
        Tensor.Joins axis y₁ y₂ y := by
  obtain ⟨inference, hinfer, rfl, hattributes, -⟩ := hfeeds.exists_inference y after hpublishes
  have hmarks : axis ∈ inference.marks := by
    unfold Node.tensorwiseAxes at hmarked
    rw [hattributes, List.map_map] at hmarked
    simpa [Function.comp_def, Attribute.axis] using hmarked
  split
  · rename_i hchannel
    obtain ⟨hweighted, rfl⟩ := hchannel
    -- Neither part is the whole, because no extent is zero.
    have hlt := part.lo_le
    have hlt' := rest.lo_le
    have hne : part ≠ whole := by
      rintro rfl
      omega
    have hne' : rest ≠ whole := by
      rintro rfl
      omega
    exact ⟨hfirst.answer_of_infer_error _ (parameters.infer_resize_channel node.name node₁.name x w
        part whole inference hinfer hweighted hwhole hne),
      hsecond.answer_of_infer_error _ (parameters.infer_resize_channel node.name node₂.name x w
        rest whole inference hinfer hweighted hwhole hne')⟩
  · rename_i hfree
    have hfollows := parameters.infer_follows node.name node₁.name x w axis part inference hinfer
      hmarks hfree
    have hfollows' := parameters.infer_follows node.name node₂.name x w axis rest inference hinfer
      hmarks hfree
    obtain ⟨after₁, hpublishes₁, -⟩ := hfirst.publishes_of_infer _ hfollows.result_eq
    obtain ⟨after₂, hpublishes₂, -⟩ := hsecond.publishes_of_infer _ hfollows'.result_eq
    have hextent : inference.y.extent? axis = some whole := hfollows.extent_eq.trans hwhole
    exact ⟨_, _, after₁, after₂, hpublishes₁, hpublishes₂,
      inference.y.joins_resize axis whole part rest hextent hsum⟩

/-- The convolution on one of the two positions of the input along an axis. -/
def halved (axis : Axis) : Graph :=
  placed pointwise (picture.resize axis (nearestExtent 1)) palette

theorem execute_split_pointwise :
    ∃ y y₁ y₂ after after₁ after₂, (placed pointwise picture palette).Publishes ⟨⟨0⟩, 0⟩ y after ∧
      (halved .batch).Publishes ⟨⟨0⟩, 0⟩ y₁ after₁ ∧ (halved .batch).Publishes ⟨⟨0⟩, 0⟩ y₂ after₂ ∧
      Tensor.Joins .batch y₁ y₂ y := by
  obtain ⟨node, -, hfeeds⟩ := feeds_placed pointwise picture palette
  obtain ⟨half, -, hhalf⟩ :=
    feeds_placed pointwise (picture.resize .batch (nearestExtent 1)) palette
  obtain ⟨after, hpublishes, hattributes, -⟩ := hfeeds.publishes_of_infer _ rfl
  have hmarked : Axis.batch ∈ after.tensorwiseAxes := by
    unfold Node.tensorwiseAxes
    rw [hattributes]
    decide
  have hsplit := execute_split _ (halved .batch) (halved .batch) _ _ _ node half half after
    pointwise picture palette _ .batch (nearestExtent 2) (nearestExtent 1) (nearestExtent 1) hfeeds
    hpublishes hmarked rfl rfl hhalf hhalf
  rw [if_neg (by decide)] at hsplit
  obtain ⟨y₁, y₂, after₁, after₂, hfirst, hsecond, hjoins⟩ := hsplit
  exact ⟨_, y₁, y₂, after, after₁, after₂, hpublishes, hfirst, hsecond, hjoins⟩

/-- A convolution of two channels marks the channel axis, and is refused each half of it. -/
theorem channels_not_split :
    Reachable (placed pointwise picture palette) ∧ Reachable (halved .channel) ∧
      picture.extent? .channel = some (nearestExtent 2) ∧
      (∃ y after, (placed pointwise picture palette).Publishes ⟨⟨0⟩, 0⟩ y after ∧
        Axis.channel ∈ after.tensorwiseAxes) ∧
      ((halved .channel).execute ⟨⟨0⟩, 0⟩).answer = .error (.incompatibleShape "Convolution2D0"
        (.channels (nearestExtent 1) (nearestExtent 2))) := by
  have hreachable : ∀ x, Reachable (placed pointwise x palette) := by
    intro x
    exact Reachable.performAll _ (.new ⟨0⟩) _
  refine ⟨hreachable picture, hreachable _, rfl, ?_, rfl⟩
  refine ⟨_, _, ⟨⟨_, rfl, rfl, rfl⟩, rfl, rfl⟩, ?_⟩
  decide

end Graph

end AxisGraph
