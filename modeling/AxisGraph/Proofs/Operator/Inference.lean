import AxisGraph.Operator.Basic
import AxisGraph.Proofs.Operator.Run
import AxisGraph.Proofs.Tensor

/-!
What the built-in operators infer. Each of them computes its result from its inputs before it
touches the context, and then records it in one go; so a built-in body is determined by a function
from its inputs to an output, the axes to mark and the axes whose edge is ignored. The operators on
images differ only in the extents that they infer.
-/

namespace AxisGraph

theorem bind_eq_ok_iff {α β : Type} (result : Except GraphError α) (f : α → Except GraphError β)
    (value : β) :
    (result >>= f) = .ok value ↔ ∃ given, result = .ok given ∧ f given = .ok value := by
  cases result with
  | error error => simp [bind, Except.bind]
  | ok given => simp [bind, Except.bind]

theorem ite_error_eq_ok_iff {α : Type} (p : Prop) [Decidable p] (result : Except GraphError α)
    (error : GraphError) (value : α) :
    (if p then result else .error error) = .ok value ↔ p ∧ result = .ok value := by
  split
  · rename_i h
    simp [h]
  · rename_i h
    simp [h]

/-- What an operator on images infers before it arranges its output: the extents, and the axes whose
edge is ignored. -/
structure Image where
  extents : ImageExtents
  ignored : List Axis
  deriving DecidableEq

/-- What a built-in operator records: its output, the axes along which it acts independently, and
the axes whose edge is ignored. -/
structure Inference where
  y : Tensor
  marks : List Axis
  ignored : List Axis
  deriving DecidableEq

namespace Inference

/-- The finding about ignored edges, if there are any. -/
def diagnostics (id : OperatorId) : List Axis → List Diagnostic
  | [] => []
  | axes => [.edgeIgnored id axes]

/-- The context of a successful execution. -/
def recorded (inference : Inference) (id : OperatorId) (name : String) (inputs : NameMap Tensor) :
    Context :=
  { Context.start id name inputs with
    outputs := [("y", inference.y)]
    attributes := inference.marks.map (.tensorwise id)
    diagnostics := diagnostics id inference.ignored
    log := (diagnostics id inference.ignored).map (.diagnosed name) }

end Inference

namespace Image

/-- The output in the layout of the input, with a mark on each axis that is not spatial. -/
def infer (image : Image) (x : Tensor) : Except GraphError Inference := do
  let y ← image.extents.tensor.changeLayout x.layout
  return { y, marks := x.layout.axes.filter fun axis => !axis.isSpatial, ignored := image.ignored }

theorem infer_eq_ok_iff (image : Image) (x : Tensor) (inference : Inference) :
    image.infer x = .ok inference ↔
      image.extents.tensor.changeLayout x.layout = .ok inference.y ∧
        inference.marks = (x.layout.axes.filter fun axis => !axis.isSpatial) ∧
        inference.ignored = image.ignored := by
  obtain ⟨y, marks, ignored⟩ := inference
  unfold infer
  cases image.extents.tensor.changeLayout x.layout with
  | error error => simp [bind, Except.bind]
  | ok arranged => simp [bind, Except.bind, pure, Except.pure, eq_comm]

theorem extent?_infer (image : Image) (x : Tensor) (inference : Inference)
    (h : image.infer x = .ok inference) (axis : Axis) :
    inference.y.extent? axis = image.extents.tensor.extent? axis := by
  obtain ⟨hy, -, -⟩ := (image.infer_eq_ok_iff x inference).mp h
  obtain ⟨-, -, hextents⟩ := (Tensor.changeLayout_eq_ok_iff _ inference.y x.layout).mp hy
  exact hextents axis

def reportIgnored (id : OperatorId) : List Axis → Body Unit
  | [] => .finish (.ok ())
  | axes => .report (.edgeIgnored id axes) (.finish (.ok ()))

def body (image : Image) (id : OperatorId) (x : Tensor) : Body Unit := do
  reportIgnored id image.ignored
  Body.publishImage id x image.extents

theorem run_reportIgnored (id : OperatorId) (name : String) (inputs : NameMap Tensor)
    (axes : List Axis) :
    (reportIgnored id axes).run (.start id name inputs) =
      (.ok (), { Context.start id name inputs with
        diagnostics := Inference.diagnostics id axes
        log := (Inference.diagnostics id axes).map (.diagnosed name) }) := by
  cases axes <;> rfl

theorem record_body (image : Image) (id : OperatorId) (x : Tensor) (name : String)
    (inputs : NameMap Tensor) :
    (image.body id x).record (.start id name inputs) =
      (image.infer x).map fun inference => inference.recorded id name inputs := by
  have hreport := run_reportIgnored id name inputs image.ignored
  have hbody : (image.body id x).record (.start id name inputs) =
      (Body.publishImage id x image.extents).record { Context.start id name inputs with
        diagnostics := Inference.diagnostics id image.ignored
        log := (Inference.diagnostics id image.ignored).map (.diagnosed name) } := by
    unfold body Body.record
    rw [Body.run_bind, hreport]
  -- What is left publishes and marks in a context that holds nothing but the finding.
  rw [hbody]
  unfold Body.publishImage infer
  rw [Body.record_ofExcept_bind]
  cases image.extents.tensor.changeLayout x.layout with
  | error error => rfl
  | ok y =>
    simp only [Except.bind]
    rw [Body.record_publish_attachAll id y _ _ rfl rfl (List.filter_sublist.nodup x.layout.nodup)]
    rfl

end Image

theorem inferAlong_eq_ok_iff {α : Type} (name : String) (x : Tensor) (axis : SpatialAxis)
    (infer : Extent → Except ShapeIssue α) (value : α) :
    inferAlong name x axis infer = .ok value ↔
      ∃ input, x.extent? axis.toAxis = some input ∧ infer input = .ok value := by
  unfold inferAlong
  rw [bind_eq_ok_iff]
  refine exists_congr fun input => and_congr (x.extent_eq_ok_iff axis.toAxis input) ?_
  cases infer input <;> simp [Except.mapError]

/-- A weight fits an input if it has the axes of an image batch, the kernel and the channels of the
input. -/
theorem weightChannels_eq_ok_iff (name : String) (x w : Tensor) (ksize : Spatial Size)
    (outputs : Extent) :
    weightChannels name x w ksize = .ok outputs ↔
      w.layout.IsPermutation .nhwc ∧
        w.extent? .height = some ksize.height.toExtent ∧
        w.extent? .width = some ksize.width.toExtent ∧
        (∃ channels, x.extent? .channel = some channels ∧ w.extent? .channel = some channels) ∧
        w.extent? .batch = some outputs := by
  unfold weightChannels
  simp only [ite_error_eq_ok_iff, bind_eq_ok_iff, Tensor.extent_eq_ok_iff]
  refine and_congr_right fun _ => ?_
  constructor
  · intro h
    obtain ⟨height, hheight, width, hwidth, hkernel, channels, hinput, expected, hexpected, rfl,
      houtputs⟩ := h
    obtain ⟨rfl, rfl⟩ := Spatial.mk.inj hkernel
    exact ⟨hheight, hwidth, ⟨channels, hinput, hexpected⟩, houtputs⟩
  · intro h
    obtain ⟨hheight, hwidth, ⟨channels, hinput, hexpected⟩, houtputs⟩ := h
    exact ⟨_, hheight, _, hwidth, rfl, channels, hinput, channels, hexpected, rfl, houtputs⟩

/-- The image of an operator with a weight. -/
def weightedImage (name : String) (x w : Tensor) (ksize : Spatial Size)
    (infer : SpatialAxis → Extent → Except ShapeIssue Extent) : Except GraphError Image := do
  let channel ← weightChannels name x w ksize
  let batch ← x.extent .batch
  let height ← inferAlong name x .height (infer .height)
  let width ← inferAlong name x .width (infer .width)
  return { extents := { batch, height, width, channel }, ignored := [] }

theorem weightedImage_eq_ok_iff (name : String) (x w : Tensor) (ksize : Spatial Size)
    (infer : SpatialAxis → Extent → Except ShapeIssue Extent) (image : Image) :
    weightedImage name x w ksize infer = .ok image ↔
      weightChannels name x w ksize = .ok image.extents.channel ∧
        x.extent? .batch = some image.extents.batch ∧
        inferAlong name x .height (infer .height) = .ok image.extents.height ∧
        inferAlong name x .width (infer .width) = .ok image.extents.width ∧
        image.ignored = [] := by
  unfold weightedImage
  simp only [bind_eq_ok_iff, Tensor.extent_eq_ok_iff, pure, Except.pure, Except.ok.injEq]
  constructor
  · intro h
    obtain ⟨channel, hchannel, batch, hbatch, height, hheight, width, hwidth, rfl⟩ := h
    exact ⟨hchannel, hbatch, hheight, hwidth, rfl⟩
  · intro h
    obtain ⟨⟨batch, height, width, channel⟩, ignored⟩ := image
    obtain ⟨hchannel, hbatch, hheight, hwidth, rfl⟩ := h
    exact ⟨channel, hchannel, batch, hbatch, height, hheight, width, hwidth, rfl⟩

namespace Pooling

def ignoredAxes (pooled : Spatial Sweep.Pooled) : List Axis :=
  (SpatialAxis.all.filter fun axis => (pooled.along axis).edgeIgnored).map SpatialAxis.toAxis

def image (pooling : Pooling) (name : String) (x : Tensor) : Except GraphError Image := do
  let batch ← x.extent .batch
  let channel ← x.extent .channel
  let height ← pooling.pooledAlong name x .height
  let width ← pooling.pooledAlong name x .width
  return {
    extents := { batch, height := height.extent, width := width.extent, channel }
    ignored := ignoredAxes ⟨height, width⟩ }

theorem image_eq_ok_iff (pooling : Pooling) (name : String) (x : Tensor) (image : Image) :
    pooling.image name x = .ok image ↔
      x.extent? .batch = some image.extents.batch ∧
        x.extent? .channel = some image.extents.channel ∧
        ∃ pooled : Spatial Sweep.Pooled,
          pooling.pooledAlong name x .height = .ok pooled.height ∧
          pooling.pooledAlong name x .width = .ok pooled.width ∧
          image.extents.height = pooled.height.extent ∧
          image.extents.width = pooled.width.extent ∧
          image.ignored = ignoredAxes pooled := by
  unfold Pooling.image
  simp only [bind_eq_ok_iff, Tensor.extent_eq_ok_iff, pure, Except.pure, Except.ok.injEq]
  constructor
  · intro h
    obtain ⟨batch, hbatch, channel, hchannel, height, hheight, width, hwidth, rfl⟩ := h
    exact ⟨hbatch, hchannel, ⟨height, width⟩, hheight, hwidth, rfl, rfl, rfl⟩
  · intro h
    obtain ⟨⟨batch, height, width, channel⟩, ignored⟩ := image
    obtain ⟨hbatch, hchannel, ⟨height, width⟩, hheight, hwidth, rfl, rfl, rfl⟩ := h
    exact ⟨batch, hbatch, channel, hchannel, height, hheight, width, hwidth, rfl⟩

theorem reportEdges_eq (id : OperatorId) (pooled : Spatial Sweep.Pooled) :
    reportEdges id pooled = Image.reportIgnored id (ignoredAxes pooled) := by
  unfold reportEdges ignoredAxes Image.reportIgnored
  rfl

theorem body_eq (pooling : Pooling) (id : OperatorId) (name : String) :
    pooling.body id name =
      (Body.read "x" >>= fun x =>
        Body.ofExcept (pooling.image name x) >>= fun image => image.body id x) := by
  simp only [body, image, Body.ofExcept_bind_bind, reportEdges_eq]
  rfl

end Pooling

namespace Convolution

def image (convolution : Convolution) (name : String) (x w : Tensor) : Except GraphError Image :=
  weightedImage name x w convolution.window.ksize fun axis =>
    (convolution.window.along axis).convolved (convolution.dilatedAlong axis) axis

theorem body_eq (convolution : Convolution) (id : OperatorId) (name : String) :
    convolution.body id name =
      (Body.read "x" >>= fun x => Body.read "w" >>= fun w =>
        Body.ofExcept (convolution.image name x w) >>= fun image => image.body id x) := by
  simp only [body, image, weightedImage, Body.ofExcept_bind_bind]
  rfl

end Convolution

namespace Deconvolution

def image (deconvolution : Deconvolution) (name : String) (x w : Tensor) :
    Except GraphError Image :=
  weightedImage name x w deconvolution.window.ksize fun axis =>
    (deconvolution.window.along axis).expanded axis

theorem body_eq (deconvolution : Deconvolution) (id : OperatorId) (name : String) :
    deconvolution.body id name =
      (Body.read "x" >>= fun x => Body.read "w" >>= fun w =>
        Body.ofExcept (deconvolution.image name x w) >>= fun image => image.body id x) := by
  simp only [body, image, weightedImage, Body.ofExcept_bind_bind]
  rfl

end Deconvolution

theorem Layout.exists_position_iff (layout : Layout) (axis : Axis) :
    (∃ place, layout.position axis = .ok place) ↔ axis ∈ layout := by
  unfold position
  cases hplace : layout.position? axis with
  | none =>
    have hnot := position?_eq_none_iff.mp hplace
    simp [hnot]
  | some place =>
    have hmem : axis ∈ layout := by
      by_contra hnot
      rw [position?_eq_none_iff.mpr hnot] at hplace
      cases hplace
    simp [hmem]

namespace LogSoftmax

def infer (softmax : LogSoftmax) (x : Tensor) : Except GraphError Inference := do
  let _ ← x.layout.position softmax.axis
  return { y := x, marks := x.layout.axes.filter fun axis => axis != softmax.axis, ignored := [] }

theorem infer_eq_ok_iff (softmax : LogSoftmax) (x : Tensor) (inference : Inference) :
    softmax.infer x = .ok inference ↔
      softmax.axis ∈ x.layout ∧ inference.y = x ∧
        inference.marks = (x.layout.axes.filter fun axis => axis != softmax.axis) ∧
        inference.ignored = [] := by
  obtain ⟨y, marks, ignored⟩ := inference
  unfold infer
  rw [bind_eq_ok_iff, ← Layout.exists_position_iff]
  simp [pure, Except.pure, eq_comm]

theorem infer_of_mem (softmax : LogSoftmax) (x : Tensor) (h : softmax.axis ∈ x.layout) :
    softmax.infer x =
      .ok ⟨x, x.layout.axes.filter fun axis => axis != softmax.axis, []⟩ :=
  (softmax.infer_eq_ok_iff x _).mpr ⟨h, rfl, rfl, rfl⟩

theorem record_body (softmax : LogSoftmax) (id : OperatorId) (name : String)
    (inputs : NameMap Tensor) (x : Tensor) (hx : inputs.find? "x" = some x) :
    (softmax.body id name).record (.start id name inputs) =
      (softmax.infer x).map fun inference => inference.recorded id name inputs := by
  unfold body infer
  rw [Body.record_read_bind "x" _ (.start id name inputs) x hx, Body.record_ofExcept_bind]
  cases x.layout.position softmax.axis with
  | error error => rfl
  | ok place =>
    simp only [Except.bind]
    rw [Body.record_publish_attachAll id x _ _ rfl rfl (List.filter_sublist.nodup x.layout.nodup)]
    rfl

end LogSoftmax

namespace Parameters

/-- The operator reads a weight beside its input. -/
def Weighted : Parameters → Prop
  | pooling _ => False
  | convolution _ => True
  | deconvolution _ => True
  | logSoftmax _ => False

instance : DecidablePred Weighted
  | pooling _ => inferInstanceAs (Decidable False)
  | convolution _ => inferInstanceAs (Decidable True)
  | deconvolution _ => inferInstanceAs (Decidable True)
  | logSoftmax _ => inferInstanceAs (Decidable False)

/-- What the operator records for its input and its weight. -/
def infer (parameters : Parameters) (name : String) (x w : Tensor) : Except GraphError Inference :=
  match parameters with
  | pooling settings => settings.image name x >>= fun image => image.infer x
  | convolution settings => settings.image name x w >>= fun image => image.infer x
  | deconvolution settings => settings.image name x w >>= fun image => image.infer x
  | logSoftmax settings => settings.infer x

theorem record_image (result : Except GraphError Image) (id : OperatorId) (x : Tensor)
    (name : String) (inputs : NameMap Tensor) :
    (Body.ofExcept result >>= fun image => image.body id x).record (.start id name inputs) =
      (result >>= fun image => image.infer x).map fun inference =>
        inference.recorded id name inputs := by
  rw [Body.record_ofExcept_bind]
  cases result with
  | error error => rfl
  | ok image => exact image.record_body id x name inputs

/-- A built-in operator records what it infers from its input and its weight. -/
theorem record_operator (parameters : Parameters) (id : OperatorId) (name : String)
    (inputs : NameMap Tensor) (x w : Tensor) (hx : inputs.find? "x" = some x)
    (hw : parameters.Weighted → inputs.find? "w" = some w) :
    (parameters.operator.body id name).record (.start id name inputs) =
      (parameters.infer name x w).map fun inference => inference.recorded id name inputs := by
  cases parameters with
  | pooling settings =>
    change (settings.body id name).record _ = _
    rw [settings.body_eq, Body.record_read_bind "x" _ (.start id name inputs) x hx]
    exact record_image (settings.image name x) id x name inputs
  | convolution settings =>
    change (settings.body id name).record _ = _
    rw [settings.body_eq, Body.record_read_bind "x" _ (.start id name inputs) x hx,
      Body.record_read_bind "w" _ (.start id name inputs) w (hw trivial)]
    exact record_image (settings.image name x w) id x name inputs
  | deconvolution settings =>
    change (settings.body id name).record _ = _
    rw [settings.body_eq, Body.record_read_bind "x" _ (.start id name inputs) x hx,
      Body.record_read_bind "w" _ (.start id name inputs) w (hw trivial)]
    exact record_image (settings.image name x w) id x name inputs
  | logSoftmax settings => exact settings.record_body id name inputs x hx

end Parameters

end AxisGraph
