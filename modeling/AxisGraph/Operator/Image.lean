import AxisGraph.Operator.Body

/-!
The common end of the operators on images: four extents are inferred, and the output has them in the
layout of the input. The operator acts independently along each axis that is not spatial.
-/

namespace AxisGraph

/-- Extents of an image batch. -/
structure ImageExtents where
  batch : Extent
  height : Extent
  width : Extent
  channel : Extent
  deriving DecidableEq

namespace ImageExtents

def tensor (extents : ImageExtents) : Tensor where
  dims := [(.batch, extents.batch), (.height, extents.height), (.width, extents.width),
    (.channel, extents.channel)]
  nodup := Layout.nhwc.nodup

@[simp]
theorem layout_tensor (extents : ImageExtents) : extents.tensor.layout = Layout.nhwc :=
  rfl

end ImageExtents

/-- An extent inferred along a spatial axis from the input's extent there. -/
def inferAlong {α : Type} (name : String) (x : Tensor) (axis : SpatialAxis)
    (infer : Extent → Except ShapeIssue α) : Except GraphError α := do
  let input ← x.extent axis.toAxis
  (infer input).mapError (.incompatibleShape name)

/-- Publish the output under `y` in the layout of `x`. -/
def Body.publishImage (id : OperatorId) (x : Tensor) (extents : ImageExtents) : Body Unit := do
  let y ← Body.ofExcept (extents.tensor.changeLayout x.layout)
  Body.publish "y" y
  Body.attachAll ((x.layout.axes.filter fun axis => !axis.isSpatial).map (.tensorwise id))

/-- Number of output channels of a weight. The weight must hold the axes of an image batch in any
order, match the kernel and have a channel for each channel of the input; its batch axis counts the
output channels. -/
def weightChannels (name : String) (x w : Tensor) (ksize : Spatial Size) :
    Except GraphError Extent :=
  if w.layout.IsPermutation .nhwc then do
    let kernel : Spatial Extent := ⟨← w.extent .height, ← w.extent .width⟩
    if kernel = ksize.map Size.toExtent then
      let input ← x.extent .channel
      let expected ← w.extent .channel
      if input = expected then w.extent .batch
      else .error (.incompatibleShape name (.channels input expected))
    else .error (.incompatibleShape name (.weightKernel kernel ksize))
  else .error (.incompatibleShape name (.weightLayout w.layout))

end AxisGraph
