import AxisGraph.Proofs.Operator.Acceptance
import AxisGraph.Proofs.Operator.Extents
import AxisGraph.Proofs.Window.Coverage

/-!
Convolution and transposed convolution with the same window, one after the other. What a transposed
convolution has spread out, convolution and pooling bring back to its extents. The other way round
the extents come back without the remainders that the windows have left, if anything is left of them
at all.
-/

namespace AxisGraph.Graph

/-- The execution of the operator publishes an image with the layout and the batch of `x` and with
these spatial extents. It leaves the operator as `after`. -/
def Reframes (graph : Graph) (operator : OperatorId) (x : Tensor) (extents : Spatial Extent)
    (after : Node) : Prop :=
  ∃ y channels, graph.Publishes operator y after ∧ x.Reframed extents channels y

/-- The execution of the operator brings back an image with these spatial extents, less the rest
along each axis. It is refused where nothing is left. -/
structure BringsBack (graph : Graph) (operator : OperatorId) (name : String) (x : Tensor)
    (extents : Spatial Extent) (rest : SpatialAxis → Int) : Prop where
  restored : (∀ axis, 0 < (extents.along axis).val - rest axis) →
    ∃ after, ∃ restored : Spatial Extent, graph.Reframes operator x restored after ∧
      ∀ axis, ((restored.along axis).val : Int) = (extents.along axis).val - rest axis
  refused : (∃ axis, (extents.along axis).val - rest axis ≤ 0) →
    ∃ issue, (graph.execute operator).answer = .error (.incompatibleShape name issue)
  complete_iff : (∃ y after, graph.Publishes operator y after ∧ y.Spans extents) ↔
    ∀ axis, rest axis = 0

section Sequence

variable {graph : Graph} {operator : OperatorId} {node : Node} {x z w : Tensor}
  {inputs outputs : Spatial Extent} {channels : Extent}

theorem Feeds.convolution_restores {convolution : Convolution}
    (h : graph.Feeds operator node (.convolution convolution) z w)
    (hdilation : convolution.dilation = Convolution.undilated)
    (himage : x.layout.IsPermutation .nhwc) (hsuits : w.Suits convolution.window.ksize z)
    (hreframed : x.Reframed outputs channels z)
    (hexpanded : ∀ axis, (convolution.window.along axis).expanded axis (inputs.along axis) =
      .ok (outputs.along axis)) :
    ∃ after, graph.Reframes operator x inputs after := by
  have hrestored : ∀ axis, (convolution.window.along axis).convolved
      (convolution.dilatedAlong axis) axis (outputs.along axis) = .ok (inputs.along axis) := by
    intro axis
    rw [convolution.dilatedAlong_of_undilated axis hdilation]
    exact Sweep.convolved_of_expanded _ _ _ axis (hexpanded axis)
  rw [← hreframed.layout_eq] at himage
  rcases h.weighted_cases _ rfl himage hsuits hreframed.spans with
    ⟨y, after, channels', restored, hpublishes, hinfer, -, hreframed', -⟩ |
    ⟨axis, issue, -, hissue⟩
  · have heq : restored = inputs := Spatial.ext_along fun axis =>
      Except.ok.inj ((hinfer axis).symm.trans (hrestored axis))
    subst restored
    exact ⟨after, y, channels', hpublishes, hreframed.trans hreframed'⟩
  · rw [hrestored axis] at hissue
    cases hissue

theorem Feeds.pooling_restores {pooling : Pooling}
    (h : graph.Feeds operator node (.pooling pooling) z w)
    (himage : x.layout.IsPermutation .nhwc) (hreframed : x.Reframed outputs channels z)
    (hexpanded : ∀ axis, (pooling.window.along axis).expanded axis (inputs.along axis) =
      .ok (outputs.along axis)) :
    ∃ after, graph.Reframes operator x inputs after ∧ after.diagnostics = [] := by
  have hrestored : ∀ axis, (pooling.window.along axis).pooled axis (outputs.along axis) =
      .ok ⟨inputs.along axis, false⟩ :=
    fun axis => Sweep.pooled_of_expanded _ _ _ axis (hexpanded axis)
  rw [← hreframed.layout_eq] at himage
  rcases h.pooling_cases himage hreframed.spans with
    ⟨y, after, channels', pooled, hpublishes, hinfer, -, hreframed', hdiagnostics⟩ |
    ⟨axis, issue, -, hissue⟩
  · have heq : pooled = inputs.map fun extent => ⟨extent, false⟩ := by
      apply Spatial.ext_along
      intro axis
      rw [Spatial.along_map]
      exact Except.ok.inj ((hinfer axis).symm.trans (hrestored axis))
    subst pooled
    exact ⟨after, ⟨y, channels', hpublishes, hreframed.trans hreframed'⟩, hdiagnostics⟩
  · rw [hrestored axis] at hissue
    cases hissue

/-- Spread out again, the windows of a convolution cover the image up to the remainders. -/
theorem Feeds.deconvolution_cases {deconvolution : Deconvolution}
    (h : graph.Feeds operator node (.deconvolution deconvolution) z w)
    (himage : x.layout.IsPermutation .nhwc) (hsuits : w.Suits deconvolution.window.ksize z)
    (hreframed : x.Reframed outputs channels z)
    (hconvolved : ∀ axis, (deconvolution.window.along axis).convolved
      (deconvolution.window.along axis).kernel.toExtent axis (inputs.along axis) =
        .ok (outputs.along axis)) :
    (∃ after, ∃ restored : Spatial Extent, graph.Reframes operator x restored after ∧
      ∀ axis, ((restored.along axis).val : Int) = (inputs.along axis).val -
        (deconvolution.window.along axis).remainder (inputs.along axis)) ∨
    ∃ axis issue, (graph.execute operator).answer = .error (.incompatibleShape node.name issue) ∧
      ((inputs.along axis).val : Int) -
        (deconvolution.window.along axis).remainder (inputs.along axis) ≤ 0 := by
  have halong := fun axis => Sweep.expanded_of_convolved _ _ _ axis (hconvolved axis)
  rw [← hreframed.layout_eq] at himage
  rcases h.weighted_cases (fun axis => (deconvolution.window.along axis).expanded axis) rfl himage
    hsuits hreframed.spans with
    ⟨y, after, channels', restored, hpublishes, hinfer, -, hreframed', -⟩ |
    ⟨axis, issue, hanswer, hissue⟩
  · refine Or.inl ⟨after, restored, ⟨y, channels', hpublishes, hreframed.trans hreframed'⟩,
      fun axis => ?_⟩
    rcases halong axis with ⟨extent, hextent, hval⟩ | ⟨-, herror⟩
    · rw [hinfer axis] at hextent
      rw [Except.ok.inj hextent]
      exact hval
    · rw [hinfer axis] at herror
      cases herror
  · rcases halong axis with ⟨extent, hextent, -⟩ | ⟨hnot, -⟩
    · rw [hissue] at hextent
      cases hextent
    · exact Or.inr ⟨axis, issue, hanswer, hnot⟩

theorem Feeds.deconvolution_bringsBack {deconvolution : Deconvolution}
    (h : graph.Feeds operator node (.deconvolution deconvolution) z w)
    (himage : x.layout.IsPermutation .nhwc) (hsuits : w.Suits deconvolution.window.ksize z)
    (hreframed : x.Reframed outputs channels z)
    (hconvolved : ∀ axis, (deconvolution.window.along axis).convolved
      (deconvolution.window.along axis).kernel.toExtent axis (inputs.along axis) =
        .ok (outputs.along axis)) :
    graph.BringsBack operator node.name x inputs fun axis =>
      (deconvolution.window.along axis).remainder (inputs.along axis) := by
  rcases h.deconvolution_cases himage hsuits hreframed hconvolved with
    ⟨after, restored, hreframes, hrestored⟩ | ⟨axis, issue, hanswer, hnot⟩
  · refine ⟨fun _ => ⟨after, restored, hreframes, hrestored⟩, ?_, ?_⟩
    · rintro ⟨axis, hnot⟩
      have hpos := (restored.along axis).lo_le
      have hval := hrestored axis
      omega
    · obtain ⟨y, channels', hpublishes, hreframed'⟩ := hreframes
      constructor
      · rintro ⟨y', after', hpublishes', hspans⟩ axis
        obtain ⟨rfl, -⟩ := hpublishes.unique _ _ _ _ _ _ hpublishes'
        have hval := hrestored axis
        rw [hreframed'.spans.unique hspans] at hval
        omega
      · intro hzero
        have heq : restored = inputs := Spatial.ext_along fun axis => InRange.ext (by
          have hval := hrestored axis
          rw [hzero axis] at hval
          omega)
        subst restored
        exact ⟨y, after, hpublishes, hreframed'.spans⟩
  · refine ⟨fun hpos => absurd (hpos axis) (by omega), fun _ => ⟨issue, hanswer⟩, ?_⟩
    constructor
    · rintro ⟨y, after, ⟨⟨v, hok, -⟩, -⟩, -⟩
      rw [hanswer] at hok
      cases hok
    · intro hzero
      have hpos := (inputs.along axis).lo_le
      rw [hzero axis] at hnot
      omega

end Sequence

/-- Convolution without dilation and pooling bring back the extents of an image that a transposed
convolution with the same window has spread out. A transposed convolution brings back the extents of
an image that a convolution has shrunk, less what its windows have left over. -/
theorem execute_restores (kind : PoolingKind) (ksize stride padding : Spatial Int)
    (pooling : Pooling) (convolution : Convolution) (deconvolution : Deconvolution)
    (hpooling : Pooling.ofParameters kind ksize stride padding = .ok pooling)
    (hconvolution : Convolution.ofParameters ksize stride padding = .ok convolution)
    (hdeconvolution : Deconvolution.ofParameters ksize stride padding = .ok deconvolution) :
    (∀ (graph graph₁ graph₂ : Graph) (operator operator₁ operator₂ : OperatorId)
      (node node₁ node₂ after : Node) (x w z w₁ w₂ : Tensor),
      graph.Feeds operator node (.deconvolution deconvolution) x w →
      graph.Publishes operator z after →
      graph₁.Feeds operator₁ node₁ (.convolution convolution) z w₁ →
      w₁.Suits convolution.window.ksize z →
      graph₂.Feeds operator₂ node₂ (.pooling pooling) z w₂ →
        ∃ inputs after₁ after₂, x.Spans inputs ∧ graph₁.Reframes operator₁ x inputs after₁ ∧
          graph₂.Reframes operator₂ x inputs after₂ ∧ after₂.diagnostics = []) ∧
    ∀ (graph graph₁ : Graph) (operator operator₁ : OperatorId) (node node₁ after : Node)
      (x w z w₁ : Tensor),
      graph.Feeds operator node (.convolution convolution) x w →
      graph.Publishes operator z after →
      graph₁.Feeds operator₁ node₁ (.deconvolution deconvolution) z w₁ →
      w₁.Suits deconvolution.window.ksize z →
        ∃ inputs, x.Spans inputs ∧ graph₁.BringsBack operator₁ node₁.name x inputs fun axis =>
          ((inputs.along axis).val + 2 * padding.along axis - ksize.along axis) %
            stride.along axis := by
  obtain ⟨-, htakes⟩ := (pooling.ofParameters_eq_ok_iff kind).mp hpooling
  obtain ⟨hdilation, htakes₁⟩ := convolution.ofParameters_eq_ok_iff.mp hconvolution
  have htakes₂ := deconvolution.ofParameters_eq_ok_iff.mp hdeconvolution
  have hwindow := htakes.unique htakes₂
  have hwindow₁ := htakes₁.unique htakes₂
  constructor
  · intro graph graph₁ graph₂ operator operator₁ operator₂ node node₁ node₂ after x w z w₁ w₂
      hfeeds hpublishes hfeeds₁ hsuits hfeeds₂
    obtain ⟨himage, inputs, outputs, channels, hinputs, hexpanded, hreframed⟩ :=
      hfeeds.exists_outputs hpublishes
        (fun axis => (deconvolution.window.along axis).expanded axis) rfl
    obtain ⟨after₁, hreframes₁⟩ := hfeeds₁.convolution_restores hdilation himage hsuits hreframed
      (hwindow₁ ▸ hexpanded)
    obtain ⟨after₂, hreframes₂, hdiagnostics⟩ := hfeeds₂.pooling_restores himage hreframed
      (hwindow ▸ hexpanded)
    exact ⟨inputs, after₁, after₂, hinputs, hreframes₁, hreframes₂, hdiagnostics⟩
  · intro graph graph₁ operator operator₁ node node₁ after x w z w₁ hfeeds hpublishes hfeeds₁ hsuits
    obtain ⟨himage, inputs, outputs, channels, hinputs, hinfer, hreframed⟩ :=
      hfeeds.exists_outputs hpublishes _ rfl
    have hconvolved : ∀ axis, (deconvolution.window.along axis).convolved
        (deconvolution.window.along axis).kernel.toExtent axis (inputs.along axis) =
          .ok (outputs.along axis) := by
      intro axis
      rw [← hwindow₁, ← convolution.dilatedAlong_of_undilated axis hdilation]
      exact hinfer axis
    have hrest : (fun axis => (deconvolution.window.along axis).remainder (inputs.along axis)) =
        fun axis => ((inputs.along axis).val + 2 * padding.along axis - ksize.along axis) %
          stride.along axis := by
      funext axis
      rw [← htakes₂.padding_eq, ← htakes₂.ksize_eq, ← htakes₂.stride_eq]
      rfl
    refine ⟨inputs, hinputs, ?_⟩
    rw [← hrest]
    exact hfeeds₁.deconvolution_bringsBack himage hsuits hreframed hconvolved

theorem execute_restores_pairwise :
    (∃ z after, (placed (.deconvolution ⟨pairwise⟩) picture stencil).Publishes ⟨⟨0⟩, 0⟩ z after ∧
      ∃ inputs after₁ after₂, picture.Spans inputs ∧
        (placed (.convolution pairing) z stencil).Reframes ⟨⟨0⟩, 0⟩ picture inputs after₁ ∧
        (placed (.pooling halving) z stencil).Reframes ⟨⟨0⟩, 0⟩ picture inputs after₂ ∧
        after₂.diagnostics = []) ∧
    ∃ z after, (placed (.convolution pairing) picture stencil).Publishes ⟨⟨0⟩, 0⟩ z after ∧
      (placed (.deconvolution ⟨pairwise⟩) z stencil).BringsBack ⟨⟨0⟩, 0⟩ "Deconvolution2D0" picture
        ⟨nearestExtent 3, nearestExtent 5⟩ fun _ => 1 := by
  obtain ⟨hundone, hshrunk⟩ := execute_restores .max (.both 2) (.both 2) (.both 0)
    halving pairing ⟨pairwise⟩ rfl rfl rfl
  constructor
  · obtain ⟨node, -, hfeeds⟩ := feeds_placed (.deconvolution ⟨pairwise⟩) picture stencil
    obtain ⟨after, hpublishes, -⟩ := hfeeds.publishes_of_infer _ rfl
    obtain ⟨node₁, -, hfeeds₁⟩ := feeds_placed (.convolution pairing) _ stencil
    obtain ⟨node₂, -, hfeeds₂⟩ := feeds_placed (.pooling halving) _ stencil
    refine ⟨_, after, hpublishes, ?_⟩
    exact hundone _ _ _ _ _ _ node node₁ node₂ after _ _ _ _ _ hfeeds hpublishes hfeeds₁
      ⟨by decide, SpatialAxis.forall_iff.mpr ⟨rfl, rfl⟩, rfl⟩ hfeeds₂
  · obtain ⟨node, -, hfeeds⟩ := feeds_placed (.convolution pairing) picture stencil
    obtain ⟨after, hpublishes, -⟩ := hfeeds.publishes_of_infer _ rfl
    obtain ⟨node₁, hname, hfeeds₁⟩ := feeds_placed (.deconvolution ⟨pairwise⟩) _ stencil
    refine ⟨_, after, hpublishes, ?_⟩
    obtain ⟨inputs, hspans, hback⟩ := hshrunk _ _ _ _ node node₁ after _ _ _ _ hfeeds hpublishes
      hfeeds₁ ⟨by decide, SpatialAxis.forall_iff.mpr ⟨rfl, rfl⟩, rfl⟩
    have hextents : picture.Spans ⟨nearestExtent 3, nearestExtent 5⟩ :=
      SpatialAxis.forall_iff.mpr ⟨rfl, rfl⟩
    obtain rfl := hspans.unique hextents
    have hrest : (fun _ => 1) = fun axis : SpatialAxis =>
        (((⟨nearestExtent 3, nearestExtent 5⟩ : Spatial Extent).along axis).val +
          2 * (Spatial.both 0).along axis - (Spatial.both 2).along axis) %
            (Spatial.both (2 : Int)).along axis := by
      funext axis
      cases axis <;> rfl
    rw [hname, ← hrest] at hback
    exact hback

end AxisGraph.Graph
