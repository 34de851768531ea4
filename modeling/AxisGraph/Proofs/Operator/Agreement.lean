import AxisGraph.Proofs.Operator.Acceptance
import AxisGraph.Proofs.Operator.Extents
import AxisGraph.Proofs.Operator.Issues
import AxisGraph.Proofs.Window.Coverage

/-!
Pooling and convolution with the same window on the same image. Either both are executed or both are
refused. The pooled image is one window longer than the convolved one along the axes whose edge is
ignored, and of the same extent along the others.
-/

namespace AxisGraph

/-- The extents along an axis are too large only if the window moves there by single positions. -/
def Window.MayOutgrow (window : Window) : ShapeIssue → Prop
  | .extentTooLarge _ axis => (window.stride.along axis).val = 1
  | _ => True

theorem Pooling.refusedFor_infer (pooling : Pooling) (name : String) (x w : Tensor) :
    RefusedFor pooling.window.MayOutgrow ((Parameters.pooling pooling).infer name x w) := by
  refine .infer _ x (.pooling pooling name x ?_)
  intro axis input issue h
  rcases Sweep.pooled_error_cases _ axis input issue h with rfl | ⟨hlarge, rfl⟩
  · trivial
  · exact Sweep.stride_eq_one_of_large _ input hlarge

theorem Convolution.refusedFor_infer (convolution : Convolution)
    (hdilation : convolution.dilation = undilated) (name : String) (x w : Tensor) :
    RefusedFor convolution.window.MayOutgrow
      ((Parameters.convolution convolution).infer name x w) := by
  refine .infer _ x (.weightedImage name x w _ _ trivial (fun _ => trivial) (fun _ _ => trivial) ?_)
  intro axis input issue h
  rw [convolution.dilatedAlong_of_undilated axis hdilation] at h
  rcases Sweep.convolved_error_cases _ _ axis input issue h with rfl | ⟨hlarge, rfl⟩
  · trivial
  · have hle := Sweep.inside_le_covering (convolution.window.along axis) input
    exact Sweep.stride_eq_one_of_large _ input (Int.lt_of_lt_of_le hlarge hle)

namespace Graph

/-- Two executions that publish images, the first of them with one more position along the axes on
which it reports an ignored edge. -/
def Overhangs (graph graph' : Graph) (operator operator' : OperatorId) : Prop :=
  ∃ y y' after after', ∃ pooled convolved : Spatial Extent,
    graph.Publishes operator y after ∧ graph'.Publishes operator' y' after' ∧
    y.Spans pooled ∧ y'.Spans convolved ∧
    ∀ axis, (after.Lists axis.toAxis → (pooled.along axis).val = (convolved.along axis).val + 1) ∧
      (¬ after.Lists axis.toAxis → (pooled.along axis).val = (convolved.along axis).val)

/-- The execution is refused for an issue with the shapes. -/
def Refuses (graph : Graph) (operator : OperatorId) (name : String) : Prop :=
  ∃ issue, (graph.execute operator).answer = .error (.incompatibleShape name issue)

theorem Feeds.overhangs_or_refuses {graph graph' : Graph} {operator operator' : OperatorId}
    {node node' : Node} {pooling : Pooling} {convolution : Convolution} {x w w' : Tensor}
    (h : graph.Feeds operator node (.pooling pooling) x w)
    (h' : graph'.Feeds operator' node' (.convolution convolution) x w')
    (hwindow : pooling.window = convolution.window)
    (hdilation : convolution.dilation = Convolution.undilated)
    (himage : x.layout.IsPermutation .nhwc) (hsuits : w'.Suits convolution.window.ksize x) :
    graph.Overhangs graph' operator operator' ∨
      graph.Refuses operator node.name ∧ graph'.Refuses operator' node'.name := by
  obtain ⟨inputs, hspans⟩ := x.exists_spans himage
  have halong : ∀ axis, (∃ pooled,
      (pooling.window.along axis).pooled axis (inputs.along axis) = .ok pooled) ↔
      ∃ extent, (convolution.window.along axis).convolved (convolution.dilatedAlong axis) axis
        (inputs.along axis) = .ok extent := by
    intro axis
    rw [convolution.dilatedAlong_of_undilated axis hdilation, hwindow]
    exact Sweep.exists_pooled_iff _ axis _
  rcases h.pooling_cases himage hspans with
    ⟨y, after, channels, pooled, hpublishes, hpooled, -, hreframed, hdiagnostics⟩ |
    ⟨axis, issue, hanswer, hissue⟩ <;>
  rcases h'.weighted_cases _ rfl himage hsuits hspans with
    ⟨y', after', channels', convolved, hpublishes', hconvolved, -, hreframed', -⟩ |
    ⟨axis', issue', hanswer', hissue'⟩
  · refine Or.inl ⟨y, y', after, after', pooled.map Sweep.Pooled.extent, convolved, hpublishes,
      hpublishes', hreframed.spans, hreframed'.spans, fun axis => ?_⟩
    have hinside := hconvolved axis
    rw [convolution.dilatedAlong_of_undilated axis hdilation, ← hwindow] at hinside
    rw [after.lists_iff operator _ axis.toAxis hdiagnostics, Pooling.mem_ignoredAxes,
      Spatial.along_map]
    exact Sweep.val_pooled _ axis _ _ _ (hpooled axis) hinside
  · obtain ⟨extent, hok⟩ := (halong axis').mp ⟨_, hpooled axis'⟩
    rw [hissue'] at hok
    cases hok
  · obtain ⟨extent, hok⟩ := (halong axis).mpr ⟨_, hconvolved axis⟩
    rw [hissue] at hok
    cases hok
  · exact Or.inr ⟨⟨issue, hanswer⟩, ⟨issue', hanswer'⟩⟩

/-- Pooling and convolution without dilation succeed or fail together on an image and a suitable
weight. Where they succeed, the extents differ by the window that hangs over an ignored edge, and an
extent is too large for either of them only if the window moves by single positions. -/
theorem execute_pools_like_convolution (kind : PoolingKind) (ksize stride padding : Spatial Int)
    (pooling : Pooling) (convolution : Convolution)
    (hpooling : Pooling.ofParameters kind ksize stride padding = .ok pooling)
    (hconvolution : Convolution.ofParameters ksize stride padding = .ok convolution) :
    (∀ (graph graph' : Graph) (operator operator' : OperatorId) (node node' : Node)
      (x w w' : Tensor),
      graph.Feeds operator node (.pooling pooling) x w →
      graph'.Feeds operator' node' (.convolution convolution) x w' →
      x.layout.IsPermutation .nhwc → w'.Suits convolution.window.ksize x →
        graph.Overhangs graph' operator operator' ∨
          graph.Refuses operator node.name ∧ graph'.Refuses operator' node'.name) ∧
    ∀ (graph : Graph) (operator : OperatorId) (node : Node), graph.nodeAt operator = .ok node →
      node.operator = (Parameters.pooling pooling).operator ∨
        node.operator = (Parameters.convolution convolution).operator →
      ∀ name value axis, (graph.execute operator).answer =
        .error (.incompatibleShape name (.extentTooLarge value axis)) →
          stride.along axis = 1 := by
  obtain ⟨-, htakes⟩ := (pooling.ofParameters_eq_ok_iff kind).mp hpooling
  obtain ⟨hdilation, htakes'⟩ := convolution.ofParameters_eq_ok_iff.mp hconvolution
  constructor
  · intro graph graph' operator operator' node node' x w w' hfeeds hfeeds' himage hsuits
    exact hfeeds.overhangs_or_refuses hfeeds' (htakes.unique htakes') hdilation himage hsuits
  · intro graph operator node hnode hoperator name value axis hanswer
    rcases hoperator with hoperator | hoperator
    · have hone := graph.refusedFor_execute operator node _ _ pooling.refusedFor_infer hnode
        hoperator name _ hanswer
      rw [← htakes.stride_eq axis]
      exact congrArg Int.ofNat hone
    · have hone := graph.refusedFor_execute operator node _ _
        (convolution.refusedFor_infer hdilation) hnode hoperator name _ hanswer
      rw [← htakes'.stride_eq axis]
      exact congrArg Int.ofNat hone

theorem execute_pools_like_convolution_halving :
    (placed (.pooling halving) picture stencil).Overhangs
      (placed (.convolution pairing) picture stencil) ⟨⟨0⟩, 0⟩ ⟨⟨0⟩, 0⟩ ∧
    ((placed smothered picture palette).execute ⟨⟨0⟩, 0⟩).answer = .error (.incompatibleShape
      "MaxPooling2D0" (.extentTooLarge 0x10000000000000001 .width)) ∧
    (Spatial.both (1 : Int)).along .width = 1 := by
  obtain ⟨hcases, -⟩ := execute_pools_like_convolution .max (.both 2) (.both 2) (.both 0)
    halving pairing rfl rfl
  obtain ⟨-, hstride⟩ := execute_pools_like_convolution .max (.both 1) (.both 1)
    (.both 0x7ffffffffffffffe) _ _ rfl rfl
  have hanswer : ((placed smothered picture palette).execute ⟨⟨0⟩, 0⟩).answer =
      .error (.incompatibleShape "MaxPooling2D0" (.extentTooLarge 0x10000000000000001 .width)) :=
    rfl
  refine ⟨?_, hanswer, hstride _ _ _ rfl (Or.inl rfl) _ _ _ hanswer⟩
  obtain ⟨node, -, hfeeds⟩ := feeds_placed (.pooling halving) picture stencil
  obtain ⟨node', -, hfeeds'⟩ := feeds_placed (.convolution pairing) picture stencil
  have hsuits : stencil.Suits pairing.window.ksize picture :=
    ⟨by decide, SpatialAxis.forall_iff.mpr ⟨rfl, rfl⟩, rfl⟩
  rcases hcases _ _ _ _ node node' picture stencil stencil hfeeds hfeeds' (by decide) hsuits with
    hboth | ⟨⟨issue, hrefused⟩, -⟩
  · exact hboth
  · cases hrefused

end Graph

end AxisGraph
