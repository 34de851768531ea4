import AxisGraph.Proofs.Graph.Reachable
import AxisGraph.Proofs.Operator.Extents
import AxisGraph.Proofs.Window.Coverage

/-!
Edges of pooled inputs. The windows that pooling counts cover the whole padded input; an axis is
listed in a finding where the windows inside the padded input alone would leave out its end.
-/

namespace AxisGraph

namespace Sweep

/-- Some position of the padded input lies at or beyond the end of the last of so many windows. -/
def LeavesOut (sweep : Sweep) (input : Extent) (windows : Int) : Prop :=
  ∃ position : Nat, position < sweep.span input ∧ sweep.reach windows ≤ position

theorem leavesOut_iff (sweep : Sweep) (input : Extent) (windows : Int) :
    sweep.LeavesOut input windows ↔ sweep.reach windows < sweep.span input := by
  have hinput := input.lo_le
  constructor
  · rintro ⟨position, hinside, hbeyond⟩
    omega
  · intro hlt
    have hspan : sweep.span input = input.val + 2 * sweep.padding.val := rfl
    exact ⟨(sweep.span input - 1).toNat, by omega, by omega⟩

instance (sweep : Sweep) (input : Extent) (windows : Int) :
    Decidable (sweep.LeavesOut input windows) :=
  decidable_of_iff _ (sweep.leavesOut_iff input windows).symm

end Sweep

namespace Graph

/-- A pooling that is executed with success publishes enough windows to cover the padded input, and
lists the axes on which the last window hangs over the end. On these axes the windows inside the
padded input are one fewer, and would leave out its end. -/
theorem execute_covers (graph : Graph) (h : Reachable graph) (operator : OperatorId) (node : Node)
    (pooling : Pooling) (ids : List VariableId) (hnode : graph.nodeAt operator = .ok node)
    (hoperator : node.operator = (Parameters.pooling pooling).operator)
    (hanswer : (graph.execute operator).answer = .ok ids) :
    ∃ x y after, ∃ inputs outputs : Spatial Extent, graph.Supplies node "x" x ∧
      graph.Publishes operator y after ∧ x.Spans inputs ∧ y.Spans outputs ∧
      ∀ axis, let sweep := pooling.window.along axis
        ¬ sweep.LeavesOut (inputs.along axis) (outputs.along axis).val ∧
        (after.Lists axis.toAxis ↔
          sweep.span (inputs.along axis) < sweep.reach (outputs.along axis).val) ∧
        (after.Lists axis.toAxis ↔ sweep.LeavesOut (inputs.along axis)
          (sweep.inside sweep.kernel.toExtent (inputs.along axis))) := by
  obtain ⟨x, w, y, after, hfeeds, hpublishes⟩ :=
    h.wellFormed.exists_feeds operator node (.pooling pooling) ids hnode hoperator hanswer
  obtain ⟨inputs, channels, pooled, hspans, hpooled, hreframed, hlists⟩ :=
    hfeeds.exists_pooled hpublishes
  refine ⟨x, y, after, inputs, pooled.map Sweep.Pooled.extent, hfeeds.input, hpublishes, hspans,
    hreframed.spans, ?_⟩
  intro axis sweep
  obtain ⟨-, hextent, hignored⟩ := (sweep.pooled_eq_ok_iff axis _ _).mp (hpooled axis)
  have hlisted : after.Lists axis.toAxis ↔ sweep.remainder (inputs.along axis) ≠ 0 := by
    rw [hlists, hignored, bne_iff_ne]
  have hbounds := sweep.remainder_bounds (inputs.along axis)
  rw [Spatial.along_map, hextent, hlisted]
  refine ⟨?_, ?_, ?_⟩
  · rw [sweep.leavesOut_iff, Int.not_lt]
    exact sweep.span_le_reach (inputs.along axis)
  · exact (sweep.span_lt_reach_iff (inputs.along axis)).symm
  · rw [sweep.leavesOut_iff, sweep.reach_inside]
    omega

theorem execute_covers_halving :
    Reachable (placed (.pooling halving) picture palette) ∧
      ((placed (.pooling halving) picture palette).execute ⟨⟨0⟩, 0⟩).answer = .ok [⟨⟨0⟩, 2⟩] ∧
      ∃ y after, ∃ inputs outputs : Spatial Extent,
        (placed (.pooling halving) picture palette).Publishes ⟨⟨0⟩, 0⟩ y after ∧
        picture.Spans inputs ∧ y.Spans outputs ∧ ∀ axis, after.Lists axis.toAxis ∧
          ¬ (halving.window.along axis).LeavesOut (inputs.along axis) (outputs.along axis).val := by
  have hreachable : Reachable (placed (.pooling halving) picture palette) :=
    Reachable.performAll _ (.new ⟨0⟩) _
  have hanswer : ((placed (.pooling halving) picture palette).execute ⟨⟨0⟩, 0⟩).answer =
      .ok [⟨⟨0⟩, 2⟩] := rfl
  obtain ⟨x, y, after, inputs, outputs, ⟨v, producer, hslot, hv⟩, hpublishes, hinputs, houtputs,
    hcovers⟩ := execute_covers _ hreachable ⟨⟨0⟩, 0⟩ _ halving [⟨⟨0⟩, 2⟩] rfl rfl hanswer
  obtain rfl : ⟨⟨0⟩, 0⟩ = v := Option.some.inj hslot
  obtain rfl : picture = x := congrArg Variable.tensor (Except.ok.inj hv)
  have hextents : picture.Spans ⟨nearestExtent 3, nearestExtent 5⟩ :=
    SpatialAxis.forall_iff.mpr ⟨rfl, rfl⟩
  refine ⟨hreachable, hanswer, y, after, inputs, outputs, hpublishes, hinputs, houtputs, ?_⟩
  intro axis
  obtain ⟨hleaves, -, hlists⟩ := hcovers axis
  refine ⟨hlists.mpr ?_, hleaves⟩
  obtain rfl := hinputs.unique hextents
  cases axis <;> decide

/-- Three windows of two positions, two positions apart, cover five positions, and yet the axis is
listed. -/
theorem covered_edge_listed :
    Reachable (placed (.pooling halving) picture palette) ∧
      ∃ node y after, (placed (.pooling halving) picture palette).Feeds ⟨⟨0⟩, 0⟩ node
          (.pooling halving) picture palette ∧
        (placed (.pooling halving) picture palette).Publishes ⟨⟨0⟩, 0⟩ y after ∧
        picture.extent? .width = some (nearestExtent 5) ∧
        y.extent? .width = some (nearestExtent 3) ∧
        ¬ (after.Lists .width ↔
          (halving.window.along .width).LeavesOut (nearestExtent 5) (nearestExtent 3).val) := by
  obtain ⟨node, -, hfeeds⟩ := feeds_placed (.pooling halving) picture palette
  obtain ⟨after, hpublishes, -, hdiagnostics⟩ := hfeeds.publishes_of_infer _ rfl
  refine ⟨Reachable.performAll _ (.new ⟨0⟩) _, node, _, after, hfeeds, hpublishes, rfl, rfl, ?_⟩
  intro hlists
  have hlisted : after.Lists .width := (after.lists_iff _ _ _ hdiagnostics).mpr (by decide)
  exact absurd (hlists.mp hlisted) (by decide)

/-- A pooling that is executed with success publishes the least number of windows that cover the
padded input. -/
theorem execute_covers_least (graph : Graph) (h : Reachable graph) (operator : OperatorId)
    (node : Node) (pooling : Pooling) (ids : List VariableId)
    (hnode : graph.nodeAt operator = .ok node)
    (hoperator : node.operator = (Parameters.pooling pooling).operator)
    (hanswer : (graph.execute operator).answer = .ok ids) :
    ∃ x y after, ∃ inputs outputs : Spatial Extent, graph.Supplies node "x" x ∧
      graph.Publishes operator y after ∧ x.Spans inputs ∧ y.Spans outputs ∧
      ∀ axis, (pooling.window.along axis).CoversLeast (inputs.along axis)
        (outputs.along axis).val (after.Lists axis.toAxis) := by
  obtain ⟨x, w, y, after, hfeeds, hpublishes⟩ :=
    h.wellFormed.exists_feeds operator node (.pooling pooling) ids hnode hoperator hanswer
  obtain ⟨inputs, channels, pooled, hspans, hpooled, hreframed, hlists⟩ :=
    hfeeds.exists_pooled hpublishes
  refine ⟨x, y, after, inputs, pooled.map Sweep.Pooled.extent, hfeeds.input, hpublishes, hspans,
    hreframed.spans, ?_⟩
  intro axis
  rw [Spatial.along_map, propext (hlists axis)]
  exact Sweep.coversLeast_pooled _ axis _ _ (hpooled axis)

/-- Windows of one position, three positions apart. -/
def skipping : Pooling :=
  ⟨.max, ⟨.both (nearestSize 1), .both (nearestSize 3), .both (nearestMargin 0)⟩⟩

/-- On three and on five positions, the last window lies behind them all. -/
theorem execute_covers_least_skipping :
    Reachable (placed (.pooling skipping) picture palette) ∧
      ((placed (.pooling skipping) picture palette).execute ⟨⟨0⟩, 0⟩).answer = .ok [⟨⟨0⟩, 2⟩] ∧
      ∃ y after, ∃ inputs outputs : Spatial Extent,
        (placed (.pooling skipping) picture palette).Publishes ⟨⟨0⟩, 0⟩ y after ∧
        picture.Spans inputs ∧ y.Spans outputs ∧ ∀ axis, after.Lists axis.toAxis ∧
          (skipping.window.along axis).span (inputs.along axis) ≤
            (skipping.window.along axis).start (outputs.along axis).val := by
  have hreachable : Reachable (placed (.pooling skipping) picture palette) :=
    Reachable.performAll _ (.new ⟨0⟩) _
  have hanswer : ((placed (.pooling skipping) picture palette).execute ⟨⟨0⟩, 0⟩).answer =
      .ok [⟨⟨0⟩, 2⟩] := rfl
  obtain ⟨x, y, after, inputs, outputs, ⟨v, producer, hslot, hv⟩, hpublishes, hinputs, houtputs,
    hleast⟩ := execute_covers_least _ hreachable ⟨⟨0⟩, 0⟩ _ skipping [⟨⟨0⟩, 2⟩] rfl rfl hanswer
  obtain rfl : ⟨⟨0⟩, 0⟩ = v := Option.some.inj hslot
  obtain rfl : picture = x := congrArg Variable.tensor (Except.ok.inj hv)
  have hextents : picture.Spans ⟨nearestExtent 3, nearestExtent 5⟩ :=
    SpatialAxis.forall_iff.mpr ⟨rfl, rfl⟩
  refine ⟨hreachable, hanswer, y, after, inputs, outputs, hpublishes, hinputs, houtputs, ?_⟩
  intro axis
  obtain rfl := hinputs.unique hextents
  have houtside := (hleast axis).outside_iff.mpr (by cases axis <;> decide)
  have hkernel := (skipping.window.along axis).kernel.lo_le
  refine ⟨(hleast axis).reported_iff.mpr ?_, houtside⟩
  unfold Sweep.start at houtside
  unfold Sweep.reach
  omega

end Graph

end AxisGraph
