import AxisGraph.Proofs.Operator.Extents
import AxisGraph.Proofs.Window.Demands

/-!
What the operators on images demand of their inputs, in the order in which they look for it. Whoever
reads an extent demands that its axis is there, so the demands that come later may speak of it.
-/

namespace AxisGraph

/-- The extent along an axis, or one where the tensor does not have the axis. -/
def Tensor.extentD (tensor : Tensor) (axis : Axis) : Extent :=
  (tensor.extent? axis).getD (Graph.nearestExtent 1)

theorem Tensor.extentD_eq (tensor : Tensor) (axis : Axis) (extent : Extent)
    (h : tensor.extent? axis = some extent) : tensor.extentD axis = extent := by
  unfold extentD
  rw [h]
  rfl

namespace Demand

def axis (tensor : Tensor) (axis : Axis) : Demand GraphError :=
  ⟨axis ∈ tensor.layout, .axisNotFound axis tensor.layout⟩

/-- A tensor that has the axes of an image batch has no other one. -/
def image (tensor : Tensor) : Demand GraphError :=
  ⟨.time ∉ tensor.layout, .axesDiffer .nhwc tensor.layout⟩

/-- Along each spatial axis, height first, the axis itself and then what is demanded of its extent.
-/
def spatial (name : String) (tensor : Tensor)
    (along : SpatialAxis → Extent → List (Demand ShapeIssue)) : List (Demand GraphError) :=
  SpatialAxis.all.flatMap fun axis => .axis tensor axis.toAxis ::
    (along axis (tensor.extentD axis.toAxis)).map (mapError (.incompatibleShape name))

/-- The weight has the axes of an image batch in any order, the kernel, and a channel for each
channel of the input. -/
def weight (name : String) (x w : Tensor) (ksize : Spatial Size) : List (Demand GraphError) :=
  let kernel : Spatial Extent := ⟨w.extentD .height, w.extentD .width⟩
  [⟨w.layout.IsPermutation .nhwc, .incompatibleShape name (.weightLayout w.layout)⟩,
    ⟨kernel = ksize.map Size.toExtent, .incompatibleShape name (.weightKernel kernel ksize)⟩,
    .axis x .channel,
    ⟨x.extentD .channel = w.extentD .channel,
      .incompatibleShape name (.channels (x.extentD .channel) (w.extentD .channel))⟩]

theorem settle_extent (tensor : Tensor) (axis : Axis) :
    Settle [.axis tensor axis] (tensor.extent axis) fun extent =>
      tensor.extent? axis = some extent := by
  refine .cons _ ?_ ?_
  · intro hmissing
    have hnone := (tensor.extent?_eq_none_iff axis).mpr (of_decide_eq_false hmissing)
    unfold Tensor.extent
    rw [hnone]
    rfl
  · intro hpresent
    obtain ⟨extent, hextent⟩ := (tensor.exists_extent_iff axis).mpr (of_decide_eq_true hpresent)
    rw [(tensor.extent_eq_ok_iff axis extent).mpr hextent]
    exact .nil extent hextent

section Inference

variable {α : Type} (name : String) (x w : Tensor)

theorem settle_inferAlong (axis : SpatialAxis) (infer : Extent → Except ShapeIssue α)
    (along : Extent → List (Demand ShapeIssue)) (P : Extent → α → Prop)
    (h : ∀ input, Settle (along input) (infer input) (P input)) :
    Settle (.axis x axis.toAxis ::
        (along (x.extentD axis.toAxis)).map (mapError (.incompatibleShape name)))
      (inferAlong name x axis infer) fun value =>
        axis.toAxis ∈ x.layout ∧ P (x.extentD axis.toAxis) value := by
  refine (settle_extent x axis.toAxis).bind ?_
  intro input hinput
  have hmem := (x.exists_extent_iff axis.toAxis).mp ⟨input, hinput⟩
  rw [x.extentD_eq axis.toAxis input hinput]
  exact ((h input).mono fun value hvalue => ⟨hmem, hvalue⟩).mapError _

theorem settle_inferBoth (infer : SpatialAxis → Extent → Except ShapeIssue α)
    (along : SpatialAxis → Extent → List (Demand ShapeIssue))
    (P : SpatialAxis → Extent → α → Prop)
    (h : ∀ axis input, Settle (along axis input) (infer axis input) (P axis input)) :
    Settle (spatial name x along) (inferBoth name x infer) fun values => ∀ axis : SpatialAxis,
      axis.toAxis ∈ x.layout ∧ P axis (x.extentD axis.toAxis) (values.along axis) := by
  unfold spatial SpatialAxis.all
  rw [List.flatMap_cons, List.flatMap_singleton]
  refine (settle_inferAlong name x .height (infer .height) _ _ (h .height)).bind ?_
  intro height hheight
  refine (settle_inferAlong name x .width (infer .width) _ _ (h .width)).map ?_
  intro width hwidth
  exact SpatialAxis.forall_iff.mpr ⟨hheight, hwidth⟩

/-- Once the layout of the weight is settled, its extents are there. -/
theorem settle_weightChannels (ksize : Spatial Size) :
    Settle (weight name x w ksize) (weightChannels name x w ksize) fun outputs =>
      .channel ∈ x.layout ∧ w.extent? .batch = some outputs := by
  unfold weightChannels
  refine .ite _ fun hlayout => ?_
  have hextents : ∀ axis ∈ Layout.nhwc, w.extent? axis = some (w.extentD axis) := by
    intro axis hmem
    obtain ⟨extent, hextent⟩ := w.exists_extent_of_image hlayout axis hmem
    rw [w.extentD_eq axis extent hextent]
    exact hextent
  simp only [← Tensor.extent_eq_ok_iff] at hextents
  rw [hextents .height (by decide), hextents .width (by decide)]
  refine .ite _ fun _ => ?_
  refine (settle_extent x .channel).bind ?_
  intro input hinput
  have hmem := (x.exists_extent_iff .channel).mp ⟨input, hinput⟩
  rw [hextents .channel (by decide), x.extentD_eq .channel input hinput]
  refine .ite _ fun _ => ?_
  rw [hextents .batch (by decide)]
  exact .nil _ ⟨hmem, (w.extent_eq_ok_iff .batch _).mp (hextents .batch (by decide))⟩

/-- An output is arranged like its input once the input has all four axes of an image batch. -/
theorem settle_infer (image : Image) (hbatch : x.extent? .batch = some image.extents.batch)
    (haxes : ∀ axis ∈ Layout.nhwc, axis ∈ x.layout) :
    Settle [.image x] (image.infer x) fun inference =>
      x.Reframed image.extents.spatial image.extents.channel inference.y ∧
        inference.ignored = image.ignored := by
  refine .cons _ ?_ ?_
  · intro htime
    have hmem : Axis.time ∈ x.layout := Classical.not_not.mp (of_decide_eq_false htime)
    have hnot : ¬ image.extents.tensor.layout.IsPermutation x.layout := by
      intro hperm
      have htime' : Axis.time ∈ Layout.nhwc := (Layout.isPermutation_iff.mp hperm .time).mpr hmem
      exact absurd htime' (by decide)
    unfold Image.infer Tensor.changeLayout
    rw [if_neg hnot]
    rfl
  · intro htime
    have hperm : x.layout.IsPermutation .nhwc := by
      refine Layout.isPermutation_iff.mpr fun axis => ⟨fun hmem => ?_, haxes axis⟩
      cases axis with
      | time => exact absurd hmem (of_decide_eq_true htime)
      | _ => decide
    obtain ⟨inference, hinfer, hreframed, hignored⟩ := image.exists_inference x hperm hbatch
    rw [hinfer]
    exact .nil inference ⟨hreframed, hignored⟩

end Inference

theorem mem_of_image (x : Tensor) (hbatch : .batch ∈ x.layout) (hchannel : .channel ∈ x.layout)
    (hspatial : ∀ axis : SpatialAxis, axis.toAxis ∈ x.layout) :
    ∀ axis ∈ Layout.nhwc, axis ∈ x.layout := by
  intro axis hmem
  cases axis with
  | batch => exact hbatch
  | channel => exact hchannel
  | height => exact hspatial .height
  | width => exact hspatial .width
  | time => exact absurd hmem (by decide)

section Operators

variable (name : String) (x w : Tensor)

/-- What an operator demands that passes batch and channels through. -/
def pooled (along : SpatialAxis → Extent → List (Demand ShapeIssue)) : List (Demand GraphError) :=
  .axis x .batch :: .axis x .channel :: (spatial name x along ++ [.image x])

/-- What an operator demands that takes the number of output channels from a weight. -/
def weighted (ksize : Spatial Size) (along : SpatialAxis → Extent → List (Demand ShapeIssue)) :
    List (Demand GraphError) :=
  weight name x w ksize ++ .axis x .batch :: (spatial name x along ++ [.image x])

theorem settle_pooled (pooling : Pooling)
    (along : SpatialAxis → Extent → List (Demand ShapeIssue))
    (P : SpatialAxis → Extent → Sweep.Pooled → Prop)
    (h : ∀ axis input, Settle (along axis input) ((pooling.window.along axis).pooled axis input)
      (P axis input)) :
    Settle (pooled name x along) (pooling.image name x >>= fun image => image.infer x)
      fun inference => ∃ channels, ∃ values : Spatial Sweep.Pooled,
        x.extent? .channel = some channels ∧
        x.Reframed (values.map Sweep.Pooled.extent) channels inference.y ∧
        (∀ axis, P axis (x.extentD axis.toAxis) (values.along axis)) ∧
        inference.ignored = Pooling.ignoredAxes values := by
  rw [pooling.image_eq]
  simp only [bind_assoc, pure_bind]
  refine (settle_extent x .batch).bind fun batch hbatch => ?_
  refine (settle_extent x .channel).bind fun channels hchannels => ?_
  refine (settle_inferBoth name x _ along P h).bind fun values hvalues => ?_
  have haxes := mem_of_image x ((x.exists_extent_iff .batch).mp ⟨batch, hbatch⟩)
    ((x.exists_extent_iff .channel).mp ⟨channels, hchannels⟩) fun axis => (hvalues axis).1
  refine (settle_infer x _ hbatch haxes).mono ?_
  rintro inference ⟨hreframed, hignored⟩
  exact ⟨channels, values, hchannels, hreframed, fun axis => (hvalues axis).2, hignored⟩

theorem settle_weighted (ksize : Spatial Size)
    (infer : SpatialAxis → Extent → Except ShapeIssue Extent)
    (along : SpatialAxis → Extent → List (Demand ShapeIssue))
    (P : SpatialAxis → Extent → Extent → Prop)
    (h : ∀ axis input, Settle (along axis input) (infer axis input) (P axis input)) :
    Settle (weighted name x w ksize along)
      (weightedImage name x w ksize infer >>= fun image => image.infer x)
      fun inference => ∃ channels outputs, w.extent? .batch = some channels ∧
        x.Reframed outputs channels inference.y ∧
        (∀ axis, P axis (x.extentD axis.toAxis) (outputs.along axis)) ∧ inference.ignored = [] := by
  rw [weightedImage_eq]
  simp only [bind_assoc, pure_bind]
  refine (settle_weightChannels name x w ksize).bind ?_
  rintro channels ⟨hmem, hchannels⟩
  refine (settle_extent x .batch).bind fun batch hbatch => ?_
  refine (settle_inferBoth name x infer along P h).bind fun outputs houtputs => ?_
  have haxes := mem_of_image x ((x.exists_extent_iff .batch).mp ⟨batch, hbatch⟩) hmem
    fun axis => (houtputs axis).1
  refine (settle_infer x _ hbatch haxes).mono ?_
  rintro inference ⟨hreframed, hignored⟩
  exact ⟨channels, outputs, hchannels, hreframed, fun axis => (houtputs axis).2, hignored⟩

end Operators

end Demand

end AxisGraph
