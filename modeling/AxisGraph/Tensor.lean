import AxisGraph.Layout.Checked

/-!
Tensors as the graph knows them: the extent of each axis, listed in the order of the layout.
Changing the layout rearranges the axes and keeps the extent of each.
-/

namespace AxisGraph

open Text

/-- A tensor's axes in physical order, each with its extent. -/
@[ext]
structure Tensor where
  dims : List (Axis × Extent)
  nodup : (dims.map Prod.fst).Nodup := by decide
  deriving DecidableEq

namespace Tensor

def layout (tensor : Tensor) : Layout := ⟨tensor.dims.map Prod.fst, tensor.nodup⟩

def shape (tensor : Tensor) : List Extent := tensor.dims.map Prod.snd

theorem length_shape (tensor : Tensor) : tensor.shape.length = tensor.layout.rank := by
  simp [shape, layout, Layout.rank]

instance : ToString Tensor :=
  ⟨fun tensor => bracketed (tensor.shape.map toString) ++ " " ++ toString tensor.layout⟩

theorem map_fst_zip_sublist {α β : Type} (as : List α) (bs : List β) :
    ((as.zip bs).map Prod.fst).Sublist as := by
  induction as generalizing bs with
  | nil => simp
  | cons a as ih => cases bs <;> simp [ih]

/-- The tensor with this shape in this layout. The shape must have an extent for each axis, and no
extent may be zero. -/
def ofShape (shape : List Word) (layout : Layout) : Except GraphError Tensor :=
  if shape.length = layout.rank then
    match shape.mapM fun word => (InRange.ofNat? word.val : Option Extent) with
    | some extents =>
      .ok ⟨layout.axes.zip extents, (map_fst_zip_sublist _ _).nodup layout.nodup⟩
    | none => .error (.zeroExtent shape)
  else .error (.rankMismatch shape layout)

/-- Extent of an axis, wherever it stands. -/
def extent? (tensor : Tensor) (axis : Axis) : Option Extent :=
  tensor.dims.lookup axis

def extent (tensor : Tensor) (axis : Axis) : Except GraphError Extent :=
  match tensor.extent? axis with
  | some extent => .ok extent
  | none => .error (.axisNotFound axis tensor.layout)

/-- Number of elements, multiplied up from left to right, as long as every product fits in a word.
-/
def size? (tensor : Tensor) : Option Word :=
  tensor.shape.foldlM (fun product extent => InRange.ofNat? (product.val * extent.val)) { val := 1 }

/-- The axes with an extent, in the order of the list. -/
def dimsAlong (tensor : Tensor) (axes : List Axis) : List (Axis × Extent) :=
  axes.filterMap fun axis => (tensor.extent? axis).map fun extent => (axis, extent)

theorem map_fst_dimsAlong_sublist (tensor : Tensor) (axes : List Axis) :
    ((tensor.dimsAlong axes).map Prod.fst).Sublist axes := by
  induction axes with
  | nil => simp [dimsAlong]
  | cons axis axes ih =>
    simp only [dimsAlong, List.filterMap_cons] at ih ⊢
    cases tensor.extent? axis with
    | none => exact ih.cons _
    | some extent => exact ih.cons_cons _

/-- The same extents in the order of another layout. -/
def arrange (tensor : Tensor) (layout : Layout) : Tensor where
  dims := tensor.dimsAlong layout.axes
  nodup := (tensor.map_fst_dimsAlong_sublist layout.axes).nodup layout.nodup

/-- Axes with extents in canonical order. -/
def canonicalDims (tensor : Tensor) : List (Axis × Extent) :=
  tensor.dimsAlong Axis.all

/-- Rearrange the axes to the target layout, which must hold the same axes. -/
def changeLayout (tensor : Tensor) (target : Layout) : Except GraphError Tensor :=
  if tensor.layout.IsPermutation target then .ok (tensor.arrange target)
  else .error (.axesDiffer tensor.layout target)

end Tensor

end AxisGraph
