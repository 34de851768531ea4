import AxisGraph.Proofs.Access.Tensor
import AxisGraph.Proofs.Operator.Inference
import AxisGraph.Proofs.Window.Exactness

/-!
Operators on plain tensors. A built-in operator reads the extents of its inputs by index, and it
builds its output as a new tensor that changes its layout; two of them take one from a number. On
the lists of tensors nothing of this can fail to be there, and the result is what the operator
infers.
-/

namespace AxisGraph

namespace Access

variable {α β γ ε : Type}

/-- Checked arithmetic on a plain number, which must be an extent. -/
def windowed (infer : Extent → Except ε α) (input : Nat) : Access α := do
  let input ← extent input
  ofExcept (infer input)

theorem windowed_val (infer : Extent → Except ε α) (input : Extent) :
    windowed infer input.val = ofExcept (infer input) := by
  unfold windowed
  rw [extent_val, done_bind]

end Access

namespace Sweep

/-- The extent that a transposed convolution makes of a plain number, of which it takes one away. -/
def expandedFrom (sweep : Sweep) (axis : SpatialAxis) (input : Nat) : Access Extent := do
  let steps ← Access.sub input 1
  let expanse := do
    let stretched ← Wide.mul steps sweep.stride.val
    let reached ← Wide.add stretched sweep.kernel.val
    let margins ← Wide.mul 2 sweep.padding.val
    Wide.sub reached margins
  let reached ← Access.ofExcept (Wide.noOverflow axis expanse)
  Access.ofExcept (Extent.ofInferred axis reached)

theorem expandedFrom_val (sweep : Sweep) (axis : SpatialAxis) (input : Extent) :
    sweep.expandedFrom axis input.val = Access.ofExcept (sweep.expanded axis input) := by
  have hsteps : ((input.val - 1 : Nat) : Int) = input.val - 1 := by
    have hpos := input.lo_le
    omega
  have hfits := (sweep.fits input input).gaps
  unfold expandedFrom expanded expanse
  rw [Access.sub_eq_done input.lo_le, Access.done_bind, Access.ofExcept_bind,
    Wide.sub_eq_some hfits, hsteps]
  rfl

end Sweep

/-- Span of a kernel under a dilation, if it fits in a word. One is taken from the kernel. -/
def spanFrom (kernel dilation : Nat) : Access (Option Nat) := do
  let gaps ← Access.sub kernel 1
  let span := dilation * gaps + 1
  return if span ≤ 0xffffffffffffffff then some span else none

theorem spanFrom_val (kernel dilation : Size) :
    spanFrom kernel.val dilation.val =
      .done (if dilatedSpan kernel dilation ≤ 0xffffffffffffffff
        then some (dilatedSpan kernel dilation) else none) := by
  unfold spanFrom
  rw [Access.sub_eq_done kernel.lo_le]
  rfl

namespace Convolution

/-- The spans of the kernel under a new dilation. Both are computed before either is looked at. -/
def spansFrom (ksize : Spatial Size) (dilation : Spatial Int) : Access (Spatial Nat) := do
  let checked : Spatial Size ← Access.ofExcept (Window.checkParameter kind .dilation dilation)
  let height ← spanFrom ksize.height.val checked.height.val
  let width ← spanFrom ksize.width.val checked.width.val
  match (Spatial.mk height width).all? with
  | some spans => .done spans
  | none => .refused

theorem all?_ite (pair : Spatial Nat) (limit : Nat) :
    (Spatial.mk (if pair.height ≤ limit then some pair.height else none)
        (if pair.width ≤ limit then some pair.width else none)).all? =
      if ∀ axis, pair.along axis ≤ limit then some pair else none := by
  simp only [SpatialAxis.forall_iff, Spatial.along]
  by_cases hheight : pair.height ≤ limit
  · by_cases hwidth : pair.width ≤ limit
    · simp [hheight, hwidth, Spatial.all?]
    · simp [hheight, hwidth, Spatial.all?]
  · simp [hheight, Spatial.all?]

theorem spansFrom_ksize (convolution : Convolution) (dilation : Spatial Int) :
    spansFrom convolution.window.ksize dilation =
      Access.ofExcept ((convolution.withDilation dilation).map fun changed =>
        changed.dilatedKsize.map InRange.val) := by
  unfold spansFrom withDilation
  cases Window.checkParameter kind .dilation dilation with
  | error error => rfl
  | ok checked =>
    let ksize := convolution.window.ksize
    let spans : Spatial Nat := ⟨dilatedSpan ksize.height checked.height,
      dilatedSpan ksize.width checked.width⟩
    have halong : ∀ axis, spans.along axis =
        dilatedSpan (ksize.along axis) (checked.along axis) := by
      intro axis
      cases axis <;> rfl
    have hall := all?_ite spans 0xffffffffffffffff
    simp only [halong] at hall
    simp only [Access.ofExcept_ok, spanFrom_val, bind, Access.bind, Except.bind]
    rw [hall]
    by_cases hfits : ∀ axis, dilatedSpan (ksize.along axis) (checked.along axis) ≤
        0xffffffffffffffff
    · rw [if_pos hfits, dif_pos hfits]
      rfl
    · rw [if_neg hfits, dif_neg hfits]
      rfl

end Convolution

namespace PlainTensor

variable {α : Type}

/-- The output of an operator on images: a new tensor, in the layout of the input. -/
def publishImage (x : PlainTensor) (batch height width channel : Nat) : Access PlainTensor := do
  let y ← ofShape [batch, height, width, channel] Layout.nhwc.axes
  y.changeLayout x.axes

/-- Number of output channels of a weight that fits the input and the kernel. -/
def weightChannels (x w : PlainTensor) (ksize : Spatial Size) : Access Nat :=
  if SameAxes w.axes Layout.nhwc.axes then do
    let height ← w.extent .height
    let width ← w.extent .width
    if height = ksize.height.val ∧ width = ksize.width.val then do
      let input ← x.extent .channel
      let expected ← w.extent .channel
      if input = expected then w.extent .batch else .refused
    else .refused
  else .refused

def pool (window : Window) (x : PlainTensor) : Access PlainTensor := do
  let batch ← x.extent .batch
  let channel ← x.extent .channel
  let height ← x.extent .height
  let height ← Access.windowed ((window.along .height).pooled .height) height
  let width ← x.extent .width
  let width ← Access.windowed ((window.along .width).pooled .width) width
  x.publishImage batch height.extent.val width.extent.val channel

/-- What an operator with a weight publishes, given what it makes of a spatial extent. -/
def weighted (ksize : Spatial Size) (infer : SpatialAxis → Nat → Access Extent)
    (x w : PlainTensor) : Access PlainTensor := do
  let channel ← x.weightChannels w ksize
  let batch ← x.extent .batch
  let height ← x.extent .height
  let height ← infer .height height
  let width ← x.extent .width
  let width ← infer .width width
  x.publishImage batch height.val width.val channel

def logSoftmax (axis : Axis) (x : PlainTensor) : Access PlainTensor := do
  let _ ← position x.axes axis
  return x

end PlainTensor

/-- What a built-in operator publishes for plain inputs. -/
def Parameters.inferPlain (parameters : Parameters) (x w : PlainTensor) : Access PlainTensor :=
  match parameters with
  | pooling settings => x.pool settings.window
  | convolution settings =>
    x.weighted settings.window.ksize (fun axis => Access.windowed
      ((settings.window.along axis).convolved (settings.dilatedAlong axis) axis)) w
  | deconvolution settings =>
    x.weighted settings.window.ksize
      (fun axis => (settings.window.along axis).expandedFrom axis) w
  | logSoftmax settings => x.logSoftmax settings.axis

namespace Tensor

theorem position_plain (tensor : Tensor) (axis : Axis) :
    PlainTensor.position tensor.plain.axes axis =
      Access.ofExcept (tensor.layout.position axis) := by
  unfold PlainTensor.position Layout.position Layout.position?
  by_cases hmem : axis ∈ tensor.layout
  · rw [if_pos hmem, if_pos (show axis ∈ tensor.plain.axes from hmem)]
    rfl
  · rw [if_neg hmem, if_neg (show axis ∉ tensor.plain.axes from hmem)]
    rfl

theorem publishImage_plain (x : Tensor) (image : Image) :
    x.plain.publishImage image.extents.batch.val image.extents.height.val
        image.extents.width.val image.extents.channel.val =
      Access.ofExcept ((image.infer x).map fun inference => inference.y.plain) := by
  have hnew : PlainTensor.ofShape [image.extents.batch.val, image.extents.height.val,
      image.extents.width.val, image.extents.channel.val] Layout.nhwc.axes =
        .done image.extents.tensor.plain := by
    have hzero : ∀ extent : Extent, 0 ≠ extent.val := by
      intro extent
      have hpos := extent.lo_le
      omega
    refine if_pos ⟨rfl, ?_⟩
    simp [hzero]
  unfold PlainTensor.publishImage Image.infer
  rw [hnew, Access.done_bind]
  refine (image.extents.tensor.changeLayout_plain x.layout).trans ?_
  cases image.extents.tensor.changeLayout x.layout <;> rfl

theorem weightChannels_plain (name : String) (x w : Tensor) (ksize : Spatial Size) :
    x.plain.weightChannels w.plain ksize =
      Access.ofExcept ((weightChannels name x w ksize).map InRange.val) := by
  unfold PlainTensor.weightChannels AxisGraph.weightChannels
  by_cases hperm : w.layout.IsPermutation .nhwc
  · have hsame : PlainTensor.SameAxes w.plain.axes Layout.nhwc.axes :=
      (isPermutation_iff_sameAxes _ _).mp hperm
    rw [if_pos hsame, if_pos hperm]
    simp only [extent_plain, Access.done_bind, Access.ofExcept_map, Access.ofExcept_bind,
      bind_assoc]
    refine bind_congr fun height => bind_congr fun width => ?_
    have hkernel : Spatial.mk height width = ksize.map Size.toExtent ↔
        height.val = ksize.height.val ∧ width.val = ksize.width.val := by
      simp [Spatial.map, InRange.ext_iff]
    by_cases hmatches : Spatial.mk height width = ksize.map Size.toExtent
    · rw [if_pos hmatches, if_pos (hkernel.mp hmatches)]
      simp only [Access.ofExcept_bind, bind_assoc]
      refine bind_congr fun input => bind_congr fun expected => ?_
      by_cases hchannels : input = expected
      · rw [if_pos hchannels, if_pos (congrArg InRange.val hchannels)]
      · rw [if_neg hchannels, if_neg (mt InRange.ext hchannels)]
        rfl
    · rw [if_neg hmatches, if_neg (mt hkernel.mpr hmatches)]
      rfl
  · have hnot : ¬ PlainTensor.SameAxes w.plain.axes Layout.nhwc.axes := fun h =>
      hperm ((isPermutation_iff_sameAxes _ _).mpr h)
    rw [if_neg hnot, if_neg hperm]
    rfl

theorem ofExcept_inferAlong {α : Type} (name : String) (x : Tensor) (axis : SpatialAxis)
    (infer : Extent → Except ShapeIssue α) :
    Access.ofExcept (inferAlong name x axis infer) =
      Access.ofExcept (x.extent axis.toAxis) >>= fun input => Access.ofExcept (infer input) := by
  unfold inferAlong
  simp only [Access.ofExcept_bind, Access.ofExcept_mapError]

theorem pool_plain (pooling : Pooling) (name : String) (x : Tensor) :
    x.plain.pool pooling.window =
      Access.ofExcept ((pooling.image name x >>= fun image => image.infer x).map fun inference =>
        inference.y.plain) := by
  unfold PlainTensor.pool Pooling.image Pooling.pooledAlong
  simp only [extent_plain, Access.done_bind, Access.windowed_val, Access.ofExcept_map,
    Access.ofExcept_bind, Access.ofExcept_pure, ofExcept_inferAlong, bind_assoc]
  refine bind_congr fun batch => bind_congr fun channel => bind_congr fun _ =>
    bind_congr fun height => bind_congr fun _ => bind_congr fun width => ?_
  refine (x.publishImage_plain ⟨⟨batch, height.extent, width.extent, channel⟩,
    Pooling.ignoredAxes ⟨height, width⟩⟩).trans ?_
  rw [Access.ofExcept_map]

theorem weighted_plain (name : String) (x w : Tensor) (ksize : Spatial Size)
    (infer : SpatialAxis → Extent → Except ShapeIssue Extent)
    (inferPlain : SpatialAxis → Nat → Access Extent)
    (h : ∀ axis (input : Extent), inferPlain axis input.val = Access.ofExcept (infer axis input)) :
    x.plain.weighted ksize inferPlain w.plain =
      Access.ofExcept ((weightedImage name x w ksize infer >>= fun image =>
        image.infer x).map fun inference => inference.y.plain) := by
  unfold PlainTensor.weighted weightedImage
  simp only [weightChannels_plain name, extent_plain, Access.done_bind, h,
    Access.ofExcept_map, Access.ofExcept_bind, Access.ofExcept_pure, ofExcept_inferAlong,
    bind_assoc]
  refine bind_congr fun channel => bind_congr fun batch => bind_congr fun _ =>
    bind_congr fun height => bind_congr fun _ => bind_congr fun width => ?_
  refine (x.publishImage_plain ⟨⟨batch, height, width, channel⟩, []⟩).trans ?_
  rw [Access.ofExcept_map]

theorem logSoftmax_plain (softmax : LogSoftmax) (x : Tensor) :
    x.plain.logSoftmax softmax.axis =
      Access.ofExcept ((softmax.infer x).map fun inference => inference.y.plain) := by
  unfold PlainTensor.logSoftmax LogSoftmax.infer
  rw [position_plain]
  cases x.layout.position softmax.axis <;> rfl

/-- On the lists of tensors, a built-in operator reads nothing that is not there, and it publishes
the lists of the tensor that it infers. -/
theorem inferPlain_plain (parameters : Parameters) (name : String) (x w : Tensor) :
    parameters.inferPlain x.plain w.plain =
      Access.ofExcept ((parameters.infer name x w).map fun inference => inference.y.plain) := by
  cases parameters with
  | pooling settings => exact x.pool_plain settings name
  | convolution settings =>
    simp only [Parameters.inferPlain, Parameters.infer, Convolution.image]
    refine x.weighted_plain name w _ _ _ ?_
    intro axis input
    exact Access.windowed_val _ input
  | deconvolution settings =>
    simp only [Parameters.inferPlain, Parameters.infer, Deconvolution.image]
    refine x.weighted_plain name w _ _ _ ?_
    intro axis input
    exact Sweep.expandedFrom_val _ axis input
  | logSoftmax settings => exact x.logSoftmax_plain settings

end Tensor

end AxisGraph
