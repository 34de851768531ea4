import AxisGraph.Proofs.Graph.Builtin

/-!
Built-in operators on rearranged tensors. Every extent is looked up by its axis, so from rearranged
tensors an operator infers the rearranged output, with the same findings and with the same axes
marked. An inference on images also fails in the same way, because the layouts do not enter its
errors as long as they hold the axes of an image batch.
-/

namespace AxisGraph

namespace Inference

/-- What is inferred from rearranged tensors: the output is rearranged, the same axes are marked and
the same edges are ignored. -/
structure Rearranged (target : Layout) (inference other : Inference) : Prop where
  y_eq : inference.y.changeLayout target = .ok other.y
  marks_perm : other.marks.Perm inference.marks
  ignored_eq : other.ignored = inference.ignored

/-- Either both inferences fail, with the same error if this is asked for, or the second one is a
rearrangement of the first. -/
def Alike (sameError : Prop) (target : Layout) :
    Except GraphError Inference → Except GraphError Inference → Prop
  | .error error, .error error' => sameError → error' = error
  | .ok inference, .ok other => Rearranged target inference other
  | .error _, .ok _ => False
  | .ok _, .error _ => False

end Inference

/-- Both tensors have the same extents along the axes of an image batch. -/
def SameImage (x x' : Tensor) : Prop := ∀ axis ∈ Layout.nhwc, x'.extent axis = x.extent axis

theorem sameImage_of_changeLayout (x x' : Tensor) (target : Layout)
    (hx : x.changeLayout target = .ok x') (himage : x.layout.IsPermutation .nhwc) :
    SameImage x x' := by
  intro axis hmem
  have hold : axis ∈ x.layout := (Layout.isPermutation_iff.mp himage axis).mpr hmem
  exact x.extent_eq_of_changeLayout x' target hx axis hold

theorem isPermutation_of_changeLayout (x x' : Tensor) (target : Layout)
    (hx : x.changeLayout target = .ok x') (himage : x.layout.IsPermutation .nhwc) :
    x'.layout.IsPermutation .nhwc := by
  obtain ⟨hperm, hlayout, -⟩ := (x.changeLayout_eq_ok_iff x' target).mp hx
  rw [hlayout]
  exact hperm.symm.trans himage

theorem inferAlong_congr {α : Type} (name : String) (x x' : Tensor) (axis : SpatialAxis)
    (infer : Extent → Except ShapeIssue α) (hsame : SameImage x x') :
    inferAlong name x' axis infer = inferAlong name x axis infer := by
  have hmem : axis.toAxis ∈ Layout.nhwc := by cases axis <;> decide
  unfold inferAlong
  rw [hsame axis.toAxis hmem]

theorem weightChannels_congr (name : String) (x x' w w' : Tensor) (ksize : Spatial Size)
    (hx : SameImage x x') (hw : SameImage w w') (hold : w.layout.IsPermutation .nhwc)
    (hnew : w'.layout.IsPermutation .nhwc) :
    weightChannels name x' w' ksize = weightChannels name x w ksize := by
  have hchannel : x'.extent .channel = x.extent .channel := hx .channel (by decide)
  have hbatch : w'.extent .batch = w.extent .batch := hw .batch (by decide)
  have hheight : w'.extent .height = w.extent .height := hw .height (by decide)
  have hwidth : w'.extent .width = w.extent .width := hw .width (by decide)
  have hexpected : w'.extent .channel = w.extent .channel := hw .channel (by decide)
  -- Past the check of the layout, only extents are compared, and in the same order.
  unfold weightChannels
  rw [if_pos hold, if_pos hnew, hchannel, hbatch, hheight, hwidth, hexpected]

theorem weightedImage_congr (name : String) (x x' w w' : Tensor) (ksize : Spatial Size)
    (infer : SpatialAxis → Extent → Except ShapeIssue Extent)
    (hx : SameImage x x') (hw : SameImage w w') (hold : w.layout.IsPermutation .nhwc)
    (hnew : w'.layout.IsPermutation .nhwc) :
    weightedImage name x' w' ksize infer = weightedImage name x w ksize infer := by
  have hbatch : x'.extent .batch = x.extent .batch := hx .batch (by decide)
  unfold weightedImage
  rw [weightChannels_congr name x x' w w' ksize hx hw hold hnew, hbatch,
    inferAlong_congr name x x' .height _ hx, inferAlong_congr name x x' .width _ hx]

theorem Pooling.image_congr (pooling : Pooling) (name : String) (x x' : Tensor)
    (hx : SameImage x x') : pooling.image name x' = pooling.image name x := by
  have hbatch : x'.extent .batch = x.extent .batch := hx .batch (by decide)
  have hchannel : x'.extent .channel = x.extent .channel := hx .channel (by decide)
  unfold Pooling.image Pooling.pooledAlong
  rw [hbatch, hchannel, inferAlong_congr name x x' .height _ hx,
    inferAlong_congr name x x' .width _ hx]

/-- An image is arranged in the layout of either tensor. -/
theorem Image.infer_alike (sameError : Prop) (result : Except GraphError Image) (x x' : Tensor)
    (target : Layout) (hx : x.changeLayout target = .ok x')
    (himage : x.layout.IsPermutation .nhwc) :
    Inference.Alike sameError target (result >>= fun image => image.infer x)
      (result >>= fun image => image.infer x') := by
  cases result with
  | error error => exact fun _ => rfl
  | ok image =>
    obtain ⟨hperm, hlayout, -⟩ := (x.changeLayout_eq_ok_iff x' target).mp hx
    have hnew := isPermutation_of_changeLayout x x' target hx himage
    -- Both outputs are arrangements of the one tensor that has the inferred extents.
    let whole := image.extents.tensor
    have hy : whole.changeLayout x.layout = .ok (whole.arrange x.layout) := if_pos himage.symm
    have hy' : whole.changeLayout x'.layout = .ok (whole.arrange x'.layout) := if_pos hnew.symm
    let inference : Inference :=
      ⟨whole.arrange x.layout, x.layout.axes.filter fun axis => !axis.isSpatial, image.ignored⟩
    let other : Inference :=
      ⟨whole.arrange x'.layout, x'.layout.axes.filter fun axis => !axis.isSpatial, image.ignored⟩
    have hinfer : image.infer x = .ok inference :=
      (image.infer_eq_ok_iff x inference).mpr ⟨hy, rfl, rfl⟩
    have hinfer' : image.infer x' = .ok other :=
      (image.infer_eq_ok_iff x' other).mpr ⟨hy', rfl, rfl⟩
    have halike : Inference.Rearranged target inference other := by
      constructor
      · rw [← hlayout]
        exact whole.changeLayout_of_common _ _ x.layout x'.layout hy hy'
      · rw [← hlayout] at hperm
        exact hperm.symm.filter _
      · rfl
    change Inference.Alike sameError target (image.infer x) (image.infer x')
    rw [hinfer, hinfer']
    exact halike

theorem weightedImage_alike (sameError : Prop) (name : String) (x x' w w' : Tensor)
    (ksize : Spatial Size) (infer : SpatialAxis → Extent → Except ShapeIssue Extent)
    (target weightTarget : Layout) (hx : x.changeLayout target = .ok x')
    (hw : w.changeLayout weightTarget = .ok w') (himage : x.layout.IsPermutation .nhwc)
    (hweight : w.layout.IsPermutation .nhwc) :
    Inference.Alike sameError target
      (weightedImage name x w ksize infer >>= fun image => image.infer x)
      (weightedImage name x' w' ksize infer >>= fun image => image.infer x') := by
  have hsame := sameImage_of_changeLayout x x' target hx himage
  have hsame' := sameImage_of_changeLayout w w' weightTarget hw hweight
  have hnew := isPermutation_of_changeLayout w w' weightTarget hw hweight
  rw [weightedImage_congr name x x' w w' ksize infer hsame hsame' hweight hnew]
  exact Image.infer_alike sameError _ x x' target hx himage

theorem LogSoftmax.infer_alike (softmax : LogSoftmax) (x x' : Tensor) (target : Layout)
    (hx : x.changeLayout target = .ok x') (sameError : Prop) (hany : ¬ sameError) :
    Inference.Alike sameError target (softmax.infer x) (softmax.infer x') := by
  obtain ⟨hperm, hlayout, -⟩ := (x.changeLayout_eq_ok_iff x' target).mp hx
  rw [← hlayout] at hperm
  have hmem : softmax.axis ∈ x.layout ↔ softmax.axis ∈ x'.layout :=
    Layout.isPermutation_iff.mp hperm softmax.axis
  cases hinfer : softmax.infer x with
  | error error =>
    cases hinfer' : softmax.infer x' with
    | error error' => exact fun h => absurd h hany
    | ok other =>
      obtain ⟨hnew, -⟩ := (softmax.infer_eq_ok_iff x' other).mp hinfer'
      rw [softmax.infer_of_mem x (hmem.mpr hnew)] at hinfer
      cases hinfer
  | ok inference =>
    obtain ⟨hold, hy, hmarks, hignored⟩ := (softmax.infer_eq_ok_iff x inference).mp hinfer
    rw [softmax.infer_of_mem x' (hmem.mp hold)]
    constructor
    · rw [hy]
      exact hx
    · rw [hmarks]
      exact hperm.symm.filter _
    · exact hignored.symm

/-- What a built-in operator infers from rearranged tensors. -/
theorem Parameters.infer_alike (parameters : Parameters) (name : String) (x x' w w' : Tensor)
    (target weightTarget : Layout) (hx : x.changeLayout target = .ok x')
    (hw : parameters.Weighted → w.changeLayout weightTarget = .ok w')
    (himage : parameters.window? ≠ none → x.layout.IsPermutation .nhwc)
    (hweight : parameters.Weighted → w.layout.IsPermutation .nhwc) :
    Inference.Alike (parameters.window? ≠ none) target (parameters.infer name x w)
      (parameters.infer name x' w') := by
  cases parameters with
  | pooling settings =>
    have hperm := himage nofun
    have hsame := sameImage_of_changeLayout x x' target hx hperm
    have hresult := settings.image_congr name x x' hsame
    change Inference.Alike _ target _ (settings.image name x' >>= fun image => image.infer x')
    rw [hresult]
    exact Image.infer_alike _ (settings.image name x) x x' target hx hperm
  | convolution settings =>
    exact weightedImage_alike _ name x x' w w' settings.window.ksize _ target weightTarget hx
      (hw trivial) (himage nofun) (hweight trivial)
  | deconvolution settings =>
    exact weightedImage_alike _ name x x' w w' settings.window.ksize _ target weightTarget hx
      (hw trivial) (himage nofun) (hweight trivial)
  | logSoftmax settings => exact settings.infer_alike x x' target hx _ (not_not_intro rfl)

namespace Graph

/-- A built-in operator that is executed on rearranged tensors fails if it fails on the tensors as
they were, on images with the same error. Otherwise it publishes the rearranged output, with the
same diagnostics and the same attributes. -/
theorem execute_rearranged (graph changed : Graph) (operator : OperatorId) (node other : Node)
    (parameters : Parameters) (x x' w w' : Tensor) (target weightTarget : Layout)
    (hname : other.name = node.name)
    (hfeeds : graph.Feeds operator node parameters x w)
    (hchanged : changed.Feeds operator other parameters x' w')
    (hx : x.changeLayout target = .ok x')
    (hw : parameters.Weighted → w.changeLayout weightTarget = .ok w')
    (himage : parameters.window? ≠ none → x.layout.IsPermutation .nhwc)
    (hweight : parameters.Weighted → w.layout.IsPermutation .nhwc) :
    (∃ error error', (graph.execute operator).answer = .error error ∧
      (changed.execute operator).answer = .error error' ∧
      (parameters.window? ≠ none → error' = error)) ∨
    ∃ y y' after after', graph.Publishes operator y after ∧
      changed.Publishes operator y' after' ∧ y.changeLayout target = .ok y' ∧
      after'.diagnostics = after.diagnostics ∧ after'.attributes.Perm after.attributes := by
  have halike : Inference.Alike (parameters.window? ≠ none) target
      (parameters.infer node.name x w) (parameters.infer other.name x' w') := by
    rw [hname]
    exact parameters.infer_alike node.name x x' w w' target weightTarget hx hw himage hweight
  cases hinfer : parameters.infer node.name x w with
  | error error =>
    cases hinfer' : parameters.infer other.name x' w' with
    | error error' =>
      rw [hinfer, hinfer'] at halike
      have hanswer := hfeeds.answer_of_infer_error error hinfer
      have hanswer' := hchanged.answer_of_infer_error error' hinfer'
      exact Or.inl ⟨error, error', hanswer, hanswer', halike⟩
    | ok inference' =>
      rw [hinfer, hinfer'] at halike
      exact halike.elim
  | ok inference =>
    cases hinfer' : parameters.infer other.name x' w' with
    | error error' =>
      rw [hinfer, hinfer'] at halike
      exact halike.elim
    | ok inference' =>
      rw [hinfer, hinfer'] at halike
      obtain ⟨after, hpublishes, hattributes, hdiagnostics⟩ :=
        hfeeds.publishes_of_infer inference hinfer
      obtain ⟨after', hpublishes', hattributes', hdiagnostics'⟩ :=
        hchanged.publishes_of_infer inference' hinfer'
      refine Or.inr ⟨inference.y, inference'.y, after, after', hpublishes, hpublishes',
        halike.y_eq, ?_, ?_⟩
      · rw [hdiagnostics, hdiagnostics', halike.ignored_eq]
      · rw [hattributes, hattributes']
        exact halike.marks_perm.map _

theorem execute_rearranged_pointwise :
    ∃ y y' after after', (placed pointwise picture palette).Publishes ⟨⟨0⟩, 0⟩ y after ∧
      (placed pointwise (picture.arrange .chwn) (palette.arrange .nchw)).Publishes ⟨⟨0⟩, 0⟩ y' after' ∧
      y.changeLayout .chwn = .ok y' ∧ after'.diagnostics = after.diagnostics ∧
      after'.attributes.Perm after.attributes := by
  obtain ⟨node, hname, hfeeds⟩ := feeds_placed pointwise picture palette
  obtain ⟨other, hname', hchanged⟩ :=
    feeds_placed pointwise (picture.arrange .chwn) (palette.arrange .nchw)
  have halike := execute_rearranged _ _ ⟨⟨0⟩, 0⟩ node other pointwise picture _ palette _ .chwn .nchw
    (hname'.trans hname.symm) hfeeds hchanged (by rfl) (fun _ => by rfl) (fun _ => by decide)
    (fun _ => by decide)
  rcases halike with hfail | hpublishes
  · obtain ⟨error, -, hanswer, -⟩ := hfail
    have hok : ((placed pointwise picture palette).execute ⟨⟨0⟩, 0⟩).answer =
        .ok [⟨⟨0⟩, 2⟩] := by rfl
    rw [hok] at hanswer
    cases hanswer
  · exact hpublishes

end Graph

end AxisGraph
