import AxisGraph.Window.Sweep

/-!
Window arithmetic over the integers. The ranges of kernels, strides, paddings and extents leave room
enough in signed 128-bit numbers: every value on the way to an extent fits, so wide arithmetic along
a sweep gives the exact result and never overflows. Among the exact results, only that of a
transposed convolution can fail to be positive.
-/

namespace AxisGraph

namespace Wide

/-- A quotient by a positive number lies between zero and the dividend. -/
theorem fdiv_bounds (a b lo hi : Int) (hb : 0 < b) (hlo : lo ≤ a) (hlo' : lo ≤ 0) (hhi : a ≤ hi)
    (hhi' : 0 ≤ hi) : lo ≤ a.fdiv b ∧ a.fdiv b ≤ hi := by
  rw [Int.fdiv_eq_ediv_of_nonneg a (Int.le_of_lt hb)]
  constructor
  · rw [Int.le_ediv_iff_mul_le hb]
    have hscaled : lo * b ≤ lo * 1 := Int.mul_le_mul_of_nonpos_left hlo' (by omega)
    omega
  · rw [← Int.lt_add_one_iff, Int.ediv_lt_iff_lt_mul hb]
    have hscaled : (hi + 1) * 1 ≤ (hi + 1) * b :=
      Int.mul_le_mul_of_nonneg_left (by omega) (by omega)
    omega

end Wide

theorem Extent.ofInferred_eq_error_iff (axis : SpatialAxis) (value : Int) (issue : ShapeIssue) :
    Extent.ofInferred axis value = .error issue ↔
      value ≤ 0 ∧ issue = .extentNotPositive value axis ∨
        0xffffffffffffffff < value ∧ issue = .extentTooLarge value axis := by
  unfold Extent.ofInferred
  cases hextent : (InRange.ofInt? value : Option Extent) with
  | some extent =>
    have hvalue := InRange.ofInt?_eq_some_iff.mp hextent
    have hlo := extent.lo_le
    have hhi := extent.le_hi
    simp only [reduceCtorEq, false_iff, not_or, not_and]
    exact ⟨fun _ => by omega, fun _ => by omega⟩
  | none =>
    have hvalue := InRange.ofInt?_eq_none_iff.mp hextent
    simp only
    split
    · have hlarge : 0xffffffffffffffff < value := by omega
      have hpos : ¬ value ≤ 0 := by omega
      simp [hlarge, hpos, eq_comm]
    · have hnot : value ≤ 0 := by omega
      have hsmall : ¬ 0xffffffffffffffff < value := by omega
      simp [hnot, hsmall, eq_comm]

theorem Extent.ofInferred_error_of_pos (axis : SpatialAxis) (value : Int) (issue : ShapeIssue)
    (hpos : 0 < value) (h : Extent.ofInferred axis value = .error issue) :
    0xffffffffffffffff < value ∧ issue = .extentTooLarge value axis := by
  rcases (Extent.ofInferred_eq_error_iff axis value issue).mp h with ⟨hnot, -⟩ | hlarge
  · omega
  · exact hlarge

namespace Sweep

/-- Extent of the padded input. -/
def span (sweep : Sweep) (input : Extent) : Int := input.val + 2 * sweep.padding.val

/-- Least number of windows that cover the padded input, if it holds a kernel. -/
def covering (sweep : Sweep) (input : Extent) : Int :=
  (sweep.span input + (sweep.stride.val - sweep.kernel.val - 1)).fdiv sweep.stride.val + 1

/-- Greatest number of windows of the given kernel inside the padded input, if it holds a kernel. -/
def inside (sweep : Sweep) (kernel input : Extent) : Int :=
  (sweep.span input - kernel.val).fdiv sweep.stride.val + 1

/-- Number of positions that a transposed convolution reaches, less the padding. -/
def expansion (sweep : Sweep) (input : Extent) : Int :=
  (input.val - 1) * sweep.stride.val + sweep.kernel.val - 2 * sweep.padding.val

/-- Every value on the way to an extent is a signed 128-bit number. The kernel is the dilated one of
a convolution. -/
structure Fits (sweep : Sweep) (kernel input : Extent) : Prop where
  margins : Wide.Fits (2 * sweep.padding.val)
  span : Wide.Fits (sweep.span input)
  excess : Wide.Fits (sweep.stride.val - sweep.kernel.val)
  overhang : Wide.Fits (sweep.stride.val - sweep.kernel.val - 1)
  numerator : Wide.Fits (sweep.span input + (sweep.stride.val - sweep.kernel.val - 1))
  coveringSteps : Wide.Fits
    ((sweep.span input + (sweep.stride.val - sweep.kernel.val - 1)).fdiv sweep.stride.val)
  covering : Wide.Fits (sweep.covering input)
  remainder : Wide.Fits (sweep.span input - sweep.kernel.val)
  room : Wide.Fits (sweep.span input - kernel.val)
  insideSteps : Wide.Fits ((sweep.span input - kernel.val).fdiv sweep.stride.val)
  inside : Wide.Fits (sweep.inside kernel input)
  gaps : Wide.Fits (input.val - 1)
  stretched : Wide.Fits ((input.val - 1) * sweep.stride.val)
  reached : Wide.Fits ((input.val - 1) * sweep.stride.val + sweep.kernel.val)
  expansion : Wide.Fits (sweep.expansion input)

theorem stretched_le (sweep : Sweep) (input : Extent) :
    0 ≤ ((input.val : Int) - 1) * sweep.stride.val ∧
      ((input.val : Int) - 1) * sweep.stride.val ≤ 0xfffffffffffffffe * 0x7fffffffffffffff := by
  have hinput := input.lo_le
  have hinput' := input.le_hi
  have hstride := sweep.stride.le_hi
  constructor
  · exact Int.mul_nonneg (by omega) (by omega)
  · exact Int.mul_le_mul (by omega) (by omega) (by omega) (by omega)

/-- The values of a transposed convolution come closest to the limit: the stretched input stays
`2 ^ 65 - 3` below it, and a kernel takes less than that. -/
theorem fits (sweep : Sweep) (kernel input : Extent) : sweep.Fits kernel input := by
  have hinput := input.lo_le
  have hinput' := input.le_hi
  have hkernel := sweep.kernel.lo_le
  have hkernel' := sweep.kernel.le_hi
  have hstride := sweep.stride.lo_le
  have hstride' := sweep.stride.le_hi
  have hpadding := sweep.padding.le_hi
  have hdilated := kernel.lo_le
  have hdilated' := kernel.le_hi
  have hspan : sweep.span input = input.val + 2 * sweep.padding.val := rfl
  have hcovering : sweep.covering input = (sweep.span input +
    (sweep.stride.val - sweep.kernel.val - 1)).fdiv sweep.stride.val + 1 := rfl
  have hinside : sweep.inside kernel input =
    (sweep.span input - kernel.val).fdiv sweep.stride.val + 1 := rfl
  have hexpansion : sweep.expansion input =
    (input.val - 1) * sweep.stride.val + sweep.kernel.val - 2 * sweep.padding.val := rfl
  have hstretched := sweep.stretched_le input
  -- The dividends are below `2 ^ 66`, so the quotients are too.
  have hsteps := Wide.fdiv_bounds (sweep.span input + (sweep.stride.val - sweep.kernel.val - 1))
    sweep.stride.val (-0x40000000000000000) 0x40000000000000000 (by omega) (by omega) (by omega)
    (by omega) (by omega)
  have hsteps' := Wide.fdiv_bounds (sweep.span input - kernel.val) sweep.stride.val
    (-0x40000000000000000) 0x40000000000000000 (by omega) (by omega) (by omega) (by omega)
    (by omega)
  constructor <;> rw [Wide.fits_iff] <;> omega

theorem padded_eq (sweep : Sweep) (input : Extent) :
    sweep.padded input = some (sweep.span input) := by
  have hfits := sweep.fits input input
  simp only [padded, Wide.mul_eq_some hfits.margins, Option.bind_eq_bind, Option.bind_some]
  exact Wide.add_eq_some hfits.span

theorem coveringWindows_eq (sweep : Sweep) (input : Extent) :
    sweep.coveringWindows (sweep.span input) = some (sweep.covering input) := by
  have hfits := sweep.fits input input
  simp only [coveringWindows, Wide.sub_eq_some hfits.excess, Wide.sub_eq_some hfits.overhang,
    Wide.add_eq_some hfits.numerator, Wide.floorDiv_eq_some hfits.coveringSteps,
    Option.bind_eq_bind, Option.bind_some]
  exact Wide.add_eq_some hfits.covering

theorem insideWindows_eq (sweep : Sweep) (kernel input : Extent) :
    sweep.insideWindows kernel (sweep.span input) = some (sweep.inside kernel input) := by
  have hfits := sweep.fits kernel input
  simp only [insideWindows, Wide.sub_eq_some hfits.room,
    Wide.floorDiv_eq_some hfits.insideSteps, Option.bind_eq_bind, Option.bind_some]
  exact Wide.add_eq_some hfits.inside

theorem expanse_eq (sweep : Sweep) (input : Extent) :
    sweep.expanse input = some (sweep.expansion input) := by
  have hfits := sweep.fits input input
  simp only [expanse, Wide.sub_eq_some hfits.gaps, Wide.mul_eq_some hfits.stretched,
    Wide.add_eq_some hfits.reached, Wide.mul_eq_some hfits.margins, Option.bind_eq_bind,
    Option.bind_some]
  exact Wide.sub_eq_some hfits.expansion

/-- Pooling along an axis, computed over the integers. -/
def pooledExactly (sweep : Sweep) (axis : SpatialAxis) (input : Extent) :
    Except ShapeIssue Pooled :=
  if sweep.span input < sweep.kernel.val then
    .error (.kernelTooLarge sweep.kernel.val (sweep.span input) axis)
  else
    (Extent.ofInferred axis (sweep.covering input)).map fun extent =>
      ⟨extent, (sweep.span input - sweep.kernel.val) % sweep.stride.val != 0⟩

/-- Convolution along an axis, computed over the integers. -/
def convolvedExactly (sweep : Sweep) (kernel : Extent) (axis : SpatialAxis) (input : Extent) :
    Except ShapeIssue Extent :=
  if sweep.span input < kernel.val then
    .error (.dilatedKernelTooLarge kernel.val (sweep.span input) axis)
  else Extent.ofInferred axis (sweep.inside kernel input)

theorem pooled_eq (sweep : Sweep) (axis : SpatialAxis) (input : Extent) :
    sweep.pooled axis input = sweep.pooledExactly axis input := by
  unfold pooled pooledExactly
  rw [padded_eq]
  simp only [Wide.noOverflow, bind, Except.bind]
  split
  · rfl
  · rw [coveringWindows_eq]
    simp only
    cases Extent.ofInferred axis (sweep.covering input) <;> rfl

theorem convolved_eq (sweep : Sweep) (kernel : Extent) (axis : SpatialAxis) (input : Extent) :
    sweep.convolved kernel axis input = sweep.convolvedExactly kernel axis input := by
  unfold convolved convolvedExactly
  rw [padded_eq]
  simp only [Wide.noOverflow, bind, Except.bind]
  split
  · rfl
  · rw [insideWindows_eq]

theorem expanded_eq (sweep : Sweep) (axis : SpatialAxis) (input : Extent) :
    sweep.expanded axis input = Extent.ofInferred axis (sweep.expansion input) := by
  unfold expanded
  rw [expanse_eq]
  rfl

/-- Once the padded input holds a kernel, at least one window covers it. -/
theorem covering_pos (sweep : Sweep) (input : Extent)
    (h : sweep.kernel.val ≤ sweep.span input) : 0 < sweep.covering input := by
  have hstride := sweep.stride.lo_le
  have hsteps : 0 ≤ (sweep.span input +
      (sweep.stride.val - sweep.kernel.val - 1)).fdiv sweep.stride.val :=
    Int.fdiv_nonneg (by omega) (by omega)
  unfold covering
  omega

theorem inside_pos (sweep : Sweep) (kernel input : Extent)
    (h : kernel.val ≤ sweep.span input) : 0 < sweep.inside kernel input := by
  have hsteps : 0 ≤ (sweep.span input - kernel.val).fdiv sweep.stride.val :=
    Int.fdiv_nonneg (by omega) (by omega)
  unfold inside
  omega

theorem pooled_error_cases (sweep : Sweep) (axis : SpatialAxis) (input : Extent)
    (issue : ShapeIssue) (h : sweep.pooled axis input = .error issue) :
    issue = .kernelTooLarge sweep.kernel.val (sweep.span input) axis ∨
      0xffffffffffffffff < sweep.covering input ∧
        issue = .extentTooLarge (sweep.covering input) axis := by
  rw [pooled_eq] at h
  unfold pooledExactly at h
  split at h
  · exact Or.inl (Except.error.inj h).symm
  · rename_i hholds
    have hpos := sweep.covering_pos input (by omega)
    cases hextent : Extent.ofInferred axis (sweep.covering input) with
    | ok extent =>
      rw [hextent] at h
      cases h
    | error cause =>
      rw [hextent] at h
      cases h
      exact Or.inr (Extent.ofInferred_error_of_pos axis _ issue hpos hextent)

theorem convolved_error_cases (sweep : Sweep) (kernel : Extent) (axis : SpatialAxis)
    (input : Extent) (issue : ShapeIssue)
    (h : sweep.convolved kernel axis input = .error issue) :
    issue = .dilatedKernelTooLarge kernel.val (sweep.span input) axis ∨
      0xffffffffffffffff < sweep.inside kernel input ∧
        issue = .extentTooLarge (sweep.inside kernel input) axis := by
  rw [convolved_eq] at h
  unfold convolvedExactly at h
  split at h
  · exact Or.inl (Except.error.inj h).symm
  · rename_i hholds
    have hpos := sweep.inside_pos kernel input (by omega)
    exact Or.inr (Extent.ofInferred_error_of_pos axis _ issue hpos h)

theorem expanded_error_cases (sweep : Sweep) (axis : SpatialAxis) (input : Extent)
    (issue : ShapeIssue) (h : sweep.expanded axis input = .error issue) :
    issue = .extentNotPositive (sweep.expansion input) axis ∨
      issue = .extentTooLarge (sweep.expansion input) axis := by
  rw [expanded_eq] at h
  rcases (Extent.ofInferred_eq_error_iff axis _ issue).mp h with ⟨-, hissue⟩ | ⟨-, hissue⟩
  · exact Or.inl hissue
  · exact Or.inr hissue

end Sweep

end AxisGraph
