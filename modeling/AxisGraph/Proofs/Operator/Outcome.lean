import AxisGraph.Proofs.Operator.Demands
import AxisGraph.Proofs.Operator.Dilation
import AxisGraph.Proofs.Graph.Trace
import AxisGraph.Proofs.Operator.Issues

/-!
Executions of the operators on images, settled for every input. The first demand that is not met is
the cause of the refusal. An execution of which all demands are met publishes an output in the layout
of the input, with the extents that the window gives in closed form.
-/

namespace AxisGraph

/-- The spatial axes along which the stride does not divide the slack, height first. -/
def Window.unevenAxes (window : Window) (x : Tensor) : List Axis :=
  (SpatialAxis.all.filter fun axis => ¬ ((window.stride.along axis).val : Int) ∣
    (window.along axis).slack (window.ksize.along axis).val (x.extentD axis.toAxis)).map
      SpatialAxis.toAxis

theorem Window.ignoredAxes_eq (window : Window) (x : Tensor) (pooled : Spatial Sweep.Pooled)
    (h : ∀ axis, (pooled.along axis).edgeIgnored = true ↔
      ¬ ((window.stride.along axis).val : Int) ∣
        (window.along axis).slack (window.ksize.along axis).val (x.extentD axis.toAxis)) :
    Pooling.ignoredAxes pooled = window.unevenAxes x := by
  unfold Pooling.ignoredAxes unevenAxes
  congr 1
  refine List.filter_congr fun axis _ => ?_
  rw [Bool.eq_iff_iff, h axis, decide_eq_true_iff]

namespace Graph

/-- The execution of the operator is refused for the first demand that is not met. If all of them
are met, it publishes an output as stated. -/
def Decides (graph : Graph) (operator : OperatorId) (demands : List (Demand GraphError))
    (Stated : Tensor → Node → Prop) : Prop :=
  Demand.Settle demands (graph.execute operator).answer fun _ =>
    ∃ y after, graph.Publishes operator y after ∧ Stated y after

namespace Decides

variable {graph : Graph} {operator : OperatorId} {demands : List (Demand GraphError)}
  {Stated : Tensor → Node → Prop}

theorem refused (h : graph.Decides operator demands Stated) (error : GraphError)
    (hrefusal : Demand.refusal? demands = some error) :
    (graph.execute operator).answer = .error error := by
  unfold Decides Demand.Settle at h
  rwa [hrefusal] at h

theorem published (h : graph.Decides operator demands Stated)
    (hrefusal : Demand.refusal? demands = none) :
    ∃ y after, graph.Publishes operator y after ∧ Stated y after := by
  unfold Decides Demand.Settle at h
  rw [hrefusal] at h
  obtain ⟨-, -, hpublished⟩ := h
  exact hpublished

end Decides

/-- What settles the inference of a built-in operator settles its execution. -/
theorem Feeds.decides {graph : Graph} {operator : OperatorId} {node : Node}
    {parameters : Parameters} {x w : Tensor} {demands : List (Demand GraphError)}
    {P : Inference → Prop} {Stated : Tensor → Node → Prop}
    (h : graph.Feeds operator node parameters x w)
    (hsettle : Demand.Settle demands (parameters.infer node.name x w) P)
    (hstated : ∀ (inference : Inference) (after : Node), P inference →
      after.diagnostics = Inference.diagnostics operator inference.ignored →
        Stated inference.y after) :
    graph.Decides operator demands Stated := by
  unfold Decides Demand.Settle at *
  cases hrefusal : Demand.refusal? demands with
  | some error =>
    rw [hrefusal] at hsettle
    exact h.answer_of_infer_error error hsettle
  | none =>
    rw [hrefusal] at hsettle
    obtain ⟨inference, hinfer, hP⟩ := hsettle
    obtain ⟨after, hpublishes, -, hdiagnostics⟩ := h.publishes_of_infer inference hinfer
    obtain ⟨v, hanswer, -⟩ := hpublishes.answer
    exact ⟨[v], hanswer, inference.y, after, hpublishes, hstated inference after hP hdiagnostics⟩

/-- Pooling demands a batch and channels, then along the height and along the width room for the
kernel and an extent that fits in a word, and at last that there is no further axis. It passes batch
and channels through, counts windows along the spatial axes, and reports the uneven ones. -/
theorem execute_pools (kind : PoolingKind) (ksize stride padding : Spatial Int) (pooling : Pooling)
    (hpooling : Pooling.ofParameters kind ksize stride padding = .ok pooling) :
    pooling.window.Takes ksize stride padding ∧
    ∀ (graph : Graph) (operator : OperatorId) (node : Node) (x w : Tensor),
      graph.Feeds operator node (.pooling pooling) x w →
        graph.Decides operator
          (Demand.pooled node.name x fun axis => (pooling.window.along axis).pooledDemands axis)
          fun y after => ∃ channels extents, x.extent? .channel = some channels ∧
            x.Reframed extents channels y ∧
            (∀ axis, ((extents.along axis).val : Int) =
              (pooling.window.along axis).pooledCount (x.extentD axis.toAxis)) ∧
            after.diagnostics =
              Inference.diagnostics operator (pooling.window.unevenAxes x) := by
  obtain ⟨-, htakes⟩ := (pooling.ofParameters_eq_ok_iff kind).mp hpooling
  refine ⟨htakes, ?_⟩
  intro graph operator node x w hfeeds
  refine hfeeds.decides (Demand.settle_pooled node.name x pooling _ _ fun axis =>
    (pooling.window.along axis).settle_pooled axis) ?_
  rintro inference after ⟨channels, values, hchannels, hreframed, hvalues, hignored⟩ hdiagnostics
  refine ⟨channels, values.map Sweep.Pooled.extent, hchannels, hreframed, ?_, ?_⟩
  · intro axis
    rw [Spatial.along_map]
    exact (hvalues axis).1
  · rw [hdiagnostics, hignored,
      pooling.window.ignoredAxes_eq x values fun axis => (hvalues axis).2]

theorem execute_pools_halving :
    Pooling.ofParameters .max (.both 2) (.both 2) (.both 0) = .ok halving ∧
    (∃ y after, ∃ extents : Spatial Extent,
      (placed (.pooling halving) picture palette).Publishes ⟨⟨0⟩, 0⟩ y after ∧
      picture.Reframed extents (nearestExtent 2) y ∧
      (∀ axis, ((extents.along axis).val : Int) = (⟨2, 3⟩ : Spatial Int).along axis) ∧
      after.diagnostics = [.edgeIgnored ⟨⟨0⟩, 0⟩ [.height, .width]]) ∧
    ((placed (.pooling halving) footage palette).execute ⟨⟨0⟩, 0⟩).answer =
      .error (.axesDiffer .nhwc footage.layout) := by
  obtain ⟨-, hpools⟩ := execute_pools .max (.both 2) (.both 2) (.both 0) halving rfl
  obtain ⟨node, hname, hfeeds⟩ := feeds_placed (.pooling halving) picture palette
  obtain ⟨node', hname', hfeeds'⟩ := feeds_placed (.pooling halving) footage palette
  have hpicture := hpools _ _ node picture palette hfeeds
  have hfootage := hpools _ _ node' footage palette hfeeds'
  rw [hname] at hpicture
  rw [hname'] at hfootage
  refine ⟨rfl, ?_, hfootage.refused _ (by decide +kernel)⟩
  obtain ⟨y, after, hpublishes, channels, extents, hchannels, hreframed, hextents, hdiagnostics⟩ :=
    hpicture.published (by decide +kernel)
  obtain rfl : nearestExtent 2 = channels := Option.some.inj hchannels
  refine ⟨y, after, extents, hpublishes, hreframed, ?_, ?_⟩
  · intro axis
    rw [hextents axis]
    revert axis
    decide +kernel
  · rw [hdiagnostics]
    decide +kernel

/-- A convolution, which may have been given any number of dilations, demands a weight that fits it
and the channels of its input, and goes on like a pooling, with the dilated kernel. Its channels are
the output channels of the weight. -/
theorem execute_convolves (ksize stride padding : Spatial Int) (dilations : List (Spatial Int))
    (convolution : Convolution)
    (hconvolution : Convolution.ofDilations ksize stride padding dilations = .ok convolution) :
    convolution.window.Takes ksize stride padding ∧
    convolution.Dilates (dilations.getLastD (.both 1)) ∧
    ∀ (graph : Graph) (operator : OperatorId) (node : Node) (x w : Tensor),
      graph.Feeds operator node (.convolution convolution) x w →
        graph.Decides operator
          (Demand.weighted node.name x w convolution.window.ksize fun axis =>
            (convolution.window.along axis).convolvedDemands (convolution.dilatedKernel axis) axis)
          fun y after => ∃ channels extents, w.extent? .batch = some channels ∧
            x.Reframed extents channels y ∧
            (∀ axis, ((extents.along axis).val : Int) =
              (convolution.window.along axis).convolvedCount (convolution.dilatedKernel axis)
                (x.extentD axis.toAxis)) ∧
            after.diagnostics = [] := by
  obtain ⟨htakes, hdilates⟩ := Convolution.ofDilations_eq_ok _ _ _ _ convolution hconvolution
  refine ⟨htakes, hdilates, ?_⟩
  intro graph operator node x w hfeeds
  simp only [← Convolution.val_dilatedAlong]
  refine hfeeds.decides (Demand.settle_weighted node.name x w convolution.window.ksize _ _ _
    fun axis => (convolution.window.along axis).settle_convolved
      (convolution.dilatedAlong axis) axis) ?_
  rintro inference after ⟨channels, outputs, hchannels, hreframed, houtputs, hignored⟩ hdiagnostics
  rw [hignored] at hdiagnostics
  exact ⟨channels, outputs, hchannels, hreframed, houtputs, hdiagnostics⟩

/-- A weight with four output channels. -/
def filters : Tensor where
  dims := [(.channel, nearestExtent 2), (.height, nearestExtent 2), (.width, nearestExtent 2),
    (.batch, nearestExtent 4)]

/-- A convolution whose two positions lie two apart. -/
def spreading : Convolution where
  window := ⟨.both (nearestSize 2), .both (nearestSize 1), .both (nearestMargin 1)⟩
  dilation := .both (nearestSize 2)
  fits := by decide

theorem execute_convolves_spreading :
    Convolution.ofDilations (.both 2) (.both 1) (.both 1) [.both 3, .both 2] = .ok spreading ∧
    (∃ y after, ∃ extents : Spatial Extent,
      (placed (.convolution spreading) picture filters).Publishes ⟨⟨0⟩, 0⟩ y after ∧
      picture.Reframed extents (nearestExtent 4) y ∧
      ∀ axis, ((extents.along axis).val : Int) = (⟨3, 5⟩ : Spatial Int).along axis) ∧
    ((placed (.convolution spreading) picture palette).execute ⟨⟨0⟩, 0⟩).answer =
      .error (.incompatibleShape "Convolution2D0"
        (.weightKernel (.both (nearestExtent 1)) (.both (nearestSize 2)))) := by
  obtain ⟨-, -, hconvolves⟩ :=
    execute_convolves (.both 2) (.both 1) (.both 1) [.both 3, .both 2] spreading rfl
  obtain ⟨node, hname, hfeeds⟩ := feeds_placed (.convolution spreading) picture filters
  obtain ⟨node', hname', hfeeds'⟩ := feeds_placed (.convolution spreading) picture palette
  have hfilters := hconvolves _ _ node picture filters hfeeds
  have hpalette := hconvolves _ _ node' picture palette hfeeds'
  rw [hname] at hfilters
  rw [hname'] at hpalette
  refine ⟨rfl, ?_, hpalette.refused _ (by decide +kernel)⟩
  obtain ⟨y, after, hpublishes, channels, extents, hchannels, hreframed, hextents, -⟩ :=
    hfilters.published (by decide +kernel)
  obtain rfl : nearestExtent 4 = channels := Option.some.inj hchannels
  refine ⟨y, after, extents, hpublishes, hreframed, ?_⟩
  intro axis
  rw [hextents axis]
  revert axis
  decide +kernel

/-- A transposed convolution demands the same of its weight. Along the spatial axes it demands that
the padding leaves a positive extent. -/
theorem execute_deconvolves (ksize stride padding : Spatial Int) (deconvolution : Deconvolution)
    (hdeconvolution : Deconvolution.ofParameters ksize stride padding = .ok deconvolution) :
    deconvolution.window.Takes ksize stride padding ∧
    ∀ (graph : Graph) (operator : OperatorId) (node : Node) (x w : Tensor),
      graph.Feeds operator node (.deconvolution deconvolution) x w →
        graph.Decides operator
          (Demand.weighted node.name x w deconvolution.window.ksize fun axis =>
            (deconvolution.window.along axis).expandedDemands axis)
          fun y after => ∃ channels extents, w.extent? .batch = some channels ∧
            x.Reframed extents channels y ∧
            (∀ axis, ((extents.along axis).val : Int) =
              (deconvolution.window.along axis).expansion (x.extentD axis.toAxis)) ∧
            after.diagnostics = [] := by
  have htakes := deconvolution.ofParameters_eq_ok_iff.mp hdeconvolution
  refine ⟨htakes, ?_⟩
  intro graph operator node x w hfeeds
  refine hfeeds.decides (Demand.settle_weighted node.name x w deconvolution.window.ksize _ _ _
    fun axis => (deconvolution.window.along axis).settle_expanded axis) ?_
  rintro inference after ⟨channels, outputs, hchannels, hreframed, houtputs, hignored⟩ hdiagnostics
  rw [hignored] at hdiagnostics
  exact ⟨channels, outputs, hchannels, hreframed, houtputs, hdiagnostics⟩

theorem execute_deconvolves_pairwise :
    Deconvolution.ofParameters (.both 2) (.both 2) (.both 0) = .ok ⟨pairwise⟩ ∧
    (∃ y after, ∃ extents : Spatial Extent,
      (placed (.deconvolution ⟨pairwise⟩) picture filters).Publishes ⟨⟨0⟩, 0⟩ y after ∧
      picture.Reframed extents (nearestExtent 4) y ∧
      ∀ axis, ((extents.along axis).val : Int) = (⟨6, 10⟩ : Spatial Int).along axis) ∧
    Deconvolution.ofParameters (.both 1) (.both 1) (.both 2) = .ok shrinking ∧
    ((placed (.deconvolution shrinking) picture palette).execute ⟨⟨0⟩, 0⟩).answer =
      .error (.incompatibleShape "Deconvolution2D0" (.extentNotPositive (-1) .height)) := by
  obtain ⟨-, hspreads⟩ := execute_deconvolves (.both 2) (.both 2) (.both 0) ⟨pairwise⟩ rfl
  obtain ⟨-, hshrinks⟩ := execute_deconvolves (.both 1) (.both 1) (.both 2) shrinking rfl
  obtain ⟨node, hname, hfeeds⟩ := feeds_placed (.deconvolution ⟨pairwise⟩) picture filters
  obtain ⟨node', hname', hfeeds'⟩ := feeds_placed (.deconvolution shrinking) picture palette
  have hfilters := hspreads _ _ node picture filters hfeeds
  have hpalette := hshrinks _ _ node' picture palette hfeeds'
  rw [hname] at hfilters
  rw [hname'] at hpalette
  refine ⟨rfl, ?_, rfl, hpalette.refused _ (by decide +kernel)⟩
  obtain ⟨y, after, hpublishes, channels, extents, hchannels, hreframed, hextents, -⟩ :=
    hfilters.published (by decide +kernel)
  obtain rfl : nearestExtent 4 = channels := Option.some.inj hchannels
  refine ⟨y, after, extents, hpublishes, hreframed, ?_⟩
  intro axis
  rw [hextents axis]
  revert axis
  decide +kernel

end Graph

end AxisGraph
