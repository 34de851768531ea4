import AxisGraph.Proofs.Demand
import AxisGraph.Proofs.Window.Coverage
import Mathlib.Data.Rat.Floor

/-!
What is demanded along an axis, in closed form. Pooling and convolution demand room for the kernel,
and a transposed convolution that something is left of what it reaches; then each of them demands
that its extent fits in a word. The extents are the exact quotients, rounded up or down.
-/

namespace AxisGraph.Sweep

/-- Positions by which a kernel can move within the padded input. There are fewer than none if it
does not fit. -/
def slack (sweep : Sweep) (kernel : Int) (input : Extent) : Int :=
  input.val + 2 * sweep.padding.val - kernel

/-- Number of windows that pooling places. -/
def pooledCount (sweep : Sweep) (input : Extent) : Int :=
  ⌈(sweep.slack sweep.kernel.val input : ℚ) / sweep.stride.val⌉ + 1

/-- Number of windows that a convolution with this kernel places. -/
def convolvedCount (sweep : Sweep) (kernel : Int) (input : Extent) : Int :=
  ⌊(sweep.slack kernel input : ℚ) / sweep.stride.val⌋ + 1

theorem covering_eq_pooledCount (sweep : Sweep) (input : Extent) :
    sweep.covering input = sweep.pooledCount input := by
  have hstride := sweep.stride.lo_le
  have hdivision := Int.mul_ediv_add_emod (-(sweep.span input - sweep.kernel.val))
    sweep.stride.val
  have hlo := Int.emod_nonneg (-(sweep.span input - sweep.kernel.val))
    (b := sweep.stride.val) (by omega)
  have hhi := Int.emod_lt_of_pos (-(sweep.span input - sweep.kernel.val))
    (b := sweep.stride.val) (by omega)
  have hsteps : (sweep.span input + (sweep.stride.val - sweep.kernel.val - 1)) / sweep.stride.val =
      -(-(sweep.span input - sweep.kernel.val) / sweep.stride.val) := by
    rw [Int.ediv_eq_iff_of_pos (by omega), Int.neg_mul, Int.mul_comm]
    omega
  unfold covering pooledCount slack
  rw [Int.fdiv_eq_ediv_of_nonneg _ (by omega), hsteps, Rat.ceil_intCast_div_natCast]
  rfl

theorem inside_eq_convolvedCount (sweep : Sweep) (kernel input : Extent) :
    sweep.inside kernel input = sweep.convolvedCount kernel.val input := by
  unfold inside convolvedCount slack
  rw [Int.fdiv_eq_ediv_of_nonneg _ (by omega), Rat.floor_intCast_div_natCast]
  rfl

/-- The inferred extent fits in a word. -/
def wordDemand (axis : SpatialAxis) (value : Int) : Demand ShapeIssue :=
  ⟨value ≤ 0xffffffffffffffff, .extentTooLarge value axis⟩

def pooledDemands (sweep : Sweep) (axis : SpatialAxis) (input : Extent) :
    List (Demand ShapeIssue) := [
  ⟨0 ≤ sweep.slack sweep.kernel.val input,
    .kernelTooLarge sweep.kernel.val (input.val + 2 * sweep.padding.val) axis⟩,
  wordDemand axis (sweep.pooledCount input)]

def convolvedDemands (sweep : Sweep) (kernel : Int) (axis : SpatialAxis) (input : Extent) :
    List (Demand ShapeIssue) := [
  ⟨0 ≤ sweep.slack kernel input,
    .dilatedKernelTooLarge kernel (input.val + 2 * sweep.padding.val) axis⟩,
  wordDemand axis (sweep.convolvedCount kernel input)]

def expandedDemands (sweep : Sweep) (axis : SpatialAxis) (input : Extent) :
    List (Demand ShapeIssue) := [
  ⟨1 ≤ sweep.expansion input, .extentNotPositive (sweep.expansion input) axis⟩,
  wordDemand axis (sweep.expansion input)]

theorem settle_ofInferred (axis : SpatialAxis) (value : Int) (hpos : 0 < value) :
    Demand.Settle [wordDemand axis value] (Extent.ofInferred axis value)
      fun extent => (extent.val : Int) = value := by
  refine .cons _ ?_ ?_
  · intro hlarge
    have hlt := of_decide_eq_false hlarge
    exact (Extent.ofInferred_eq_error_iff axis value _).mpr (Or.inr ⟨by omega, rfl⟩)
  · intro hword
    obtain ⟨extent, hextent⟩ := Extent.exists_val_eq value hpos (of_decide_eq_true hword)
    rw [(Extent.ofInferred_eq_ok_iff axis value extent).mpr hextent]
    exact .nil extent hextent

theorem settle_pooled (sweep : Sweep) (axis : SpatialAxis) (input : Extent) :
    Demand.Settle (sweep.pooledDemands axis input) (sweep.pooled axis input) fun pooled =>
      (pooled.extent.val : Int) = sweep.pooledCount input ∧
        (pooled.edgeIgnored = true ↔
          ¬ (sweep.stride.val : Int) ∣ sweep.slack sweep.kernel.val input) := by
  have hslack : sweep.slack sweep.kernel.val input = sweep.span input - sweep.kernel.val := rfl
  rw [pooled_eq]
  unfold pooledExactly
  refine .cons _ ?_ ?_
  · intro hnone
    have hlt := of_decide_eq_false hnone
    exact if_pos (by omega)
  · intro hroom
    have hle := of_decide_eq_true hroom
    rw [if_neg (by omega), ← covering_eq_pooledCount]
    refine (settle_ofInferred axis _ (sweep.covering_pos input (by omega))).map ?_
    intro extent hextent
    refine ⟨hextent, ?_⟩
    rw [bne_iff_ne, hslack, Int.dvd_iff_emod_eq_zero]

theorem settle_convolved (sweep : Sweep) (kernel : Extent) (axis : SpatialAxis) (input : Extent) :
    Demand.Settle (sweep.convolvedDemands kernel.val axis input)
      (sweep.convolved kernel axis input)
      fun extent => (extent.val : Int) = sweep.convolvedCount kernel.val input := by
  have hslack : sweep.slack kernel.val input = sweep.span input - kernel.val := rfl
  rw [convolved_eq]
  unfold convolvedExactly
  refine .cons _ ?_ ?_
  · intro hnone
    have hlt := of_decide_eq_false hnone
    exact if_pos (by omega)
  · intro hroom
    have hle := of_decide_eq_true hroom
    rw [if_neg (by omega), ← inside_eq_convolvedCount]
    exact settle_ofInferred axis _ (sweep.inside_pos kernel input (by omega))

theorem settle_expanded (sweep : Sweep) (axis : SpatialAxis) (input : Extent) :
    Demand.Settle (sweep.expandedDemands axis input) (sweep.expanded axis input)
      fun extent => (extent.val : Int) = sweep.expansion input := by
  rw [expanded_eq]
  refine .cons _ ?_ ?_
  · intro hnone
    have hlt := of_decide_eq_false hnone
    exact (Extent.ofInferred_eq_error_iff axis _ _).mpr (Or.inl ⟨by omega, rfl⟩)
  · intro hsome
    exact settle_ofInferred axis _ (of_decide_eq_true hsome)

end AxisGraph.Sweep
