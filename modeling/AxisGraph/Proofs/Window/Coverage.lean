import AxisGraph.Proofs.Window.Exactness

/-!
How the windows of a sweep lie on the padded input. The windows inside it leave a remainder that is
shorter than the stride, and if there is any, one more window covers it and hangs over the end. So
the pooled and the convolved extent differ by at most one, and neither outgrows a word unless the
stride is one. A transposed convolution spreads the input so that no remainder is left.
-/

namespace AxisGraph

theorem Extent.ofInferred_eq_ok_iff (axis : SpatialAxis) (value : Int) (extent : Extent) :
    Extent.ofInferred axis value = .ok extent ↔ (extent.val : Int) = value := by
  unfold Extent.ofInferred
  cases hextent : (InRange.ofInt? value : Option Extent) with
  | some other =>
    have hvalue := InRange.ofInt?_eq_some_iff.mp hextent
    simp only [Except.ok.injEq]
    exact ⟨fun heq => heq ▸ hvalue, fun heq => InRange.ext (by omega)⟩
  | none =>
    have hvalue := InRange.ofInt?_eq_none_iff.mp hextent
    have hlo := extent.lo_le
    have hhi := extent.le_hi
    have hne : (extent.val : Int) ≠ value := by omega
    simp only [hne, iff_false]
    split <;> exact nofun

theorem Extent.exists_val_eq (value : Int) (hpos : 0 < value) (hle : value ≤ 0xffffffffffffffff) :
    ∃ extent : Extent, (extent.val : Int) = value :=
  ⟨{ val := value.toNat }, Int.toNat_of_nonneg (by omega)⟩

namespace Sweep

/-- What the windows inside the padded input leave uncovered at its end, if it holds a kernel. -/
def remainder (sweep : Sweep) (input : Extent) : Int :=
  (sweep.span input - sweep.kernel.val) % sweep.stride.val

/-- End of the last of so many windows, from the start of the padded input. -/
def reach (sweep : Sweep) (windows : Int) : Int :=
  (windows - 1) * sweep.stride.val + sweep.kernel.val

theorem remainder_bounds (sweep : Sweep) (input : Extent) :
    0 ≤ sweep.remainder input ∧ sweep.remainder input < sweep.stride.val := by
  have hstride := sweep.stride.lo_le
  exact ⟨Int.emod_nonneg _ (by omega), Int.emod_lt_of_pos _ (by omega)⟩

/-- Each further window starts a stride later. -/
theorem reach_add (sweep : Sweep) (windows more : Int) :
    sweep.reach (windows + more) = sweep.reach windows + more * sweep.stride.val := by
  have hwindows : windows + more - 1 = windows - 1 + more := by omega
  unfold reach
  rw [hwindows, Int.add_mul]
  omega

theorem reach_inside (sweep : Sweep) (input : Extent) :
    sweep.reach (sweep.inside sweep.kernel.toExtent input) =
      sweep.span input - sweep.remainder input := by
  have hdivision := Int.mul_ediv_add_emod (sweep.span input - sweep.kernel.val) sweep.stride.val
  unfold reach inside remainder
  rw [Size.val_toExtent, Int.fdiv_eq_ediv_of_nonneg _ (by omega), Int.add_sub_cancel, Int.mul_comm]
  omega

/-- The windows that cover the padded input are those inside it, and one more if these leave a
remainder. -/
theorem covering_eq (sweep : Sweep) (input : Extent) :
    sweep.covering input = sweep.inside sweep.kernel.toExtent input +
      if sweep.remainder input = 0 then 0 else 1 := by
  have hstride := sweep.stride.lo_le
  have hbounds := sweep.remainder_bounds input
  have hreach := sweep.reach_inside input
  unfold reach at hreach
  have hsteps : (sweep.span input + (sweep.stride.val - sweep.kernel.val - 1)) / sweep.stride.val =
      sweep.inside sweep.kernel.toExtent input - 1 +
        if sweep.remainder input = 0 then 0 else 1 := by
    rw [Int.ediv_eq_iff_of_pos (by omega), Int.add_mul]
    split <;> omega
  unfold covering
  rw [Int.fdiv_eq_ediv_of_nonneg _ (by omega), hsteps]
  omega

/-- The windows that cover the padded input end with it if the windows inside leave no remainder.
Otherwise the last of them hangs over the end. -/
theorem reach_covering (sweep : Sweep) (input : Extent) :
    sweep.reach (sweep.covering input) = sweep.span input +
      if sweep.remainder input = 0 then 0 else sweep.stride.val - sweep.remainder input := by
  rw [covering_eq, reach_add, reach_inside]
  split <;> omega

theorem span_le_reach (sweep : Sweep) (input : Extent) :
    sweep.span input ≤ sweep.reach (sweep.covering input) := by
  have hbounds := sweep.remainder_bounds input
  rw [reach_covering]
  split <;> omega

theorem span_lt_reach_iff (sweep : Sweep) (input : Extent) :
    sweep.span input < sweep.reach (sweep.covering input) ↔ sweep.remainder input ≠ 0 := by
  have hbounds := sweep.remainder_bounds input
  rw [reach_covering]
  split <;> omega

/-- Start of the last of so many windows. -/
def start (sweep : Sweep) (windows : Int) : Int := (windows - 1) * sweep.stride.val

/-- So many windows are just enough to cover the padded input, and the axis is reported where the
last of them hangs over the end. If the windows leave gaps, the last one may even start beyond the
end. -/
structure CoversLeast (sweep : Sweep) (input : Extent) (windows : Int) (reported : Prop) :
    Prop where
  covers : sweep.span input ≤ sweep.reach windows
  least : ∀ fewer < windows, sweep.reach fewer < sweep.span input
  reported_iff : reported ↔ sweep.span input < sweep.reach windows
  outside_iff : sweep.span input ≤ sweep.start windows ↔
    0 < sweep.remainder input ∧
      sweep.kernel.val + sweep.remainder input ≤ (sweep.stride.val : Int)
  starts_inside : sweep.stride.val ≤ sweep.kernel.val → sweep.start windows < sweep.span input

theorem reach_lt_span (sweep : Sweep) (input : Extent) (fewer : Int)
    (h : fewer < sweep.covering input) : sweep.reach fewer < sweep.span input := by
  have hbounds := sweep.remainder_bounds input
  have hsum : fewer + (sweep.covering input - fewer) = sweep.covering input := by omega
  have hreach := sweep.reach_add fewer (sweep.covering input - fewer)
  have hstep : 1 * (sweep.stride.val : Int) ≤
      (sweep.covering input - fewer) * sweep.stride.val :=
    Int.mul_le_mul_of_nonneg_right (by omega) (by omega)
  rw [hsum, reach_covering] at hreach
  split at hreach <;> omega

theorem span_le_start_iff (sweep : Sweep) (input : Extent) :
    sweep.span input ≤ sweep.start (sweep.covering input) ↔
      0 < sweep.remainder input ∧
        sweep.kernel.val + sweep.remainder input ≤ (sweep.stride.val : Int) := by
  have hkernel := sweep.kernel.lo_le
  have hbounds := sweep.remainder_bounds input
  have hreach := sweep.reach_covering input
  have hstart : sweep.reach (sweep.covering input) =
    sweep.start (sweep.covering input) + sweep.kernel.val := rfl
  split at hreach <;> omega

theorem coversLeast_covering (sweep : Sweep) (input : Extent) :
    sweep.CoversLeast input (sweep.covering input) (sweep.remainder input ≠ 0) where
  covers := sweep.span_le_reach input
  least fewer hlt := sweep.reach_lt_span input fewer hlt
  reported_iff := (sweep.span_lt_reach_iff input).symm
  outside_iff := sweep.span_le_start_iff input
  starts_inside hle := by
    have houtside := sweep.span_le_start_iff input
    omega

/-- Windows that start more than one position apart are never too many for a word. The largest
padded input takes just as many as a word can hold when they start two positions apart. -/
theorem covering_le (sweep : Sweep) (input : Extent) (hstride : 1 < sweep.stride.val) :
    sweep.covering input ≤ 0xffffffffffffffff := by
  have hbounds := sweep.remainder_bounds input
  have hreach := sweep.reach_covering input
  have hinput := input.le_hi
  have hkernel := sweep.kernel.lo_le
  have hpadding := sweep.padding.le_hi
  have hspan : sweep.span input = input.val + 2 * sweep.padding.val := rfl
  apply Int.not_lt.mp
  intro hlarge
  -- All windows but the last one end inside the padded input, which has no room for so many.
  have hlast := sweep.reach_add (sweep.covering input - 1) 1
  have hscaled : 0xfffffffffffffffe * 2 ≤ (sweep.covering input - 1 - 1) * sweep.stride.val :=
    Int.mul_le_mul (by omega) (by omega) (by omega) (by omega)
  rw [Int.sub_add_cancel, hreach] at hlast
  unfold reach at hlast
  split at hlast <;> omega

example : (⟨{ val := 1 }, { val := 2 }, { val := 0x7fffffffffffffff }⟩ : Sweep).covering
    { val := 0xffffffffffffffff } = 0xffffffffffffffff := by
  decide

/-- The windows inside the padded input are no more than those that cover it. -/
theorem inside_le_covering (sweep : Sweep) (input : Extent) :
    sweep.inside sweep.kernel.toExtent input ≤ sweep.covering input := by
  rw [covering_eq]
  split <;> omega

theorem stride_eq_one_of_large (sweep : Sweep) (input : Extent)
    (h : 0xffffffffffffffff < sweep.covering input) : sweep.stride.val = 1 := by
  have hstride := sweep.stride.lo_le
  have hcovering := sweep.covering_le input
  omega

/-- The two numbers of windows differ only where both have room in a word. -/
theorem covering_le_iff (sweep : Sweep) (input : Extent) :
    sweep.covering input ≤ 0xffffffffffffffff ↔
      sweep.inside sweep.kernel.toExtent input ≤ 0xffffffffffffffff := by
  have hle := sweep.inside_le_covering input
  constructor
  · omega
  · intro hinside
    apply Int.not_lt.mp
    intro hlarge
    -- Windows at every position leave no remainder.
    have hstride := sweep.stride_eq_one_of_large input hlarge
    have hbounds := sweep.remainder_bounds input
    have hzero : sweep.remainder input = 0 := by omega
    rw [covering_eq, if_pos hzero] at hlarge
    omega

theorem pooled_eq_ok_iff (sweep : Sweep) (axis : SpatialAxis) (input : Extent) (pooled : Pooled) :
    sweep.pooled axis input = .ok pooled ↔
      sweep.kernel.val ≤ sweep.span input ∧ (pooled.extent.val : Int) = sweep.covering input ∧
        pooled.edgeIgnored = (sweep.remainder input != 0) := by
  rw [pooled_eq]
  unfold pooledExactly
  split
  · rename_i hlarge
    simp only [reduceCtorEq, false_iff, not_and]
    omega
  · rename_i hholds
    have hle : sweep.kernel.val ≤ sweep.span input := by omega
    obtain ⟨extent, edgeIgnored⟩ := pooled
    simp only [hle, true_and, ← Extent.ofInferred_eq_ok_iff axis, eq_comm (a := edgeIgnored)]
    cases Extent.ofInferred axis (sweep.covering input) with
    | error issue => simp [Except.map]
    | ok other => simp [Except.map, remainder]

theorem coversLeast_pooled (sweep : Sweep) (axis : SpatialAxis) (input : Extent) (pooled : Pooled)
    (h : sweep.pooled axis input = .ok pooled) :
    sweep.CoversLeast input pooled.extent.val (pooled.edgeIgnored = true) := by
  obtain ⟨-, hextent, hignored⟩ := (sweep.pooled_eq_ok_iff axis input pooled).mp h
  rw [hextent, hignored, bne_iff_ne]
  exact sweep.coversLeast_covering input

theorem convolved_eq_ok_iff (sweep : Sweep) (kernel : Extent) (axis : SpatialAxis)
    (input extent : Extent) :
    sweep.convolved kernel axis input = .ok extent ↔
      kernel.val ≤ sweep.span input ∧ (extent.val : Int) = sweep.inside kernel input := by
  rw [convolved_eq]
  unfold convolvedExactly
  split
  · rename_i hlarge
    simp only [reduceCtorEq, false_iff, not_and]
    omega
  · rename_i hholds
    rw [Extent.ofInferred_eq_ok_iff]
    omega

theorem expanded_eq_ok_iff (sweep : Sweep) (axis : SpatialAxis) (input extent : Extent) :
    sweep.expanded axis input = .ok extent ↔ (extent.val : Int) = sweep.expansion input := by
  rw [expanded_eq, Extent.ofInferred_eq_ok_iff]

/-- Pooling and convolution without dilation accept the same inputs. -/
theorem exists_pooled_iff (sweep : Sweep) (axis : SpatialAxis) (input : Extent) :
    (∃ pooled, sweep.pooled axis input = .ok pooled) ↔
      ∃ extent, sweep.convolved sweep.kernel.toExtent axis input = .ok extent := by
  have hfits := sweep.covering_le_iff input
  constructor
  · rintro ⟨pooled, hpooled⟩
    obtain ⟨hholds, hextent, -⟩ := (sweep.pooled_eq_ok_iff axis input pooled).mp hpooled
    have hword := pooled.extent.le_hi
    have hpos := sweep.inside_pos sweep.kernel.toExtent input hholds
    obtain ⟨extent, hinside⟩ := Extent.exists_val_eq _ hpos (by omega)
    exact ⟨extent, (sweep.convolved_eq_ok_iff _ axis input extent).mpr ⟨hholds, hinside⟩⟩
  · rintro ⟨extent, hconvolved⟩
    obtain ⟨hholds, hinside⟩ := (sweep.convolved_eq_ok_iff _ axis input extent).mp hconvolved
    have hword := extent.le_hi
    have hpos := sweep.covering_pos input hholds
    obtain ⟨extent, hcovering⟩ := Extent.exists_val_eq _ hpos (by omega)
    exact ⟨⟨extent, _⟩, (sweep.pooled_eq_ok_iff axis input _).mpr ⟨hholds, hcovering, rfl⟩⟩

/-- The window that hangs over the end is counted by pooling only. -/
theorem val_pooled (sweep : Sweep) (axis : SpatialAxis) (input extent : Extent) (pooled : Pooled)
    (h : sweep.pooled axis input = .ok pooled)
    (h' : sweep.convolved sweep.kernel.toExtent axis input = .ok extent) :
    (pooled.edgeIgnored = true → pooled.extent.val = extent.val + 1) ∧
      (¬ pooled.edgeIgnored = true → pooled.extent.val = extent.val) := by
  obtain ⟨-, hcovering, hignored⟩ := (sweep.pooled_eq_ok_iff axis input pooled).mp h
  obtain ⟨-, hinside⟩ := (sweep.convolved_eq_ok_iff _ axis input extent).mp h'
  have heq := sweep.covering_eq input
  rw [hignored, bne_iff_ne]
  constructor
  · intro hrest
    rw [if_neg hrest] at heq
    omega
  · intro hnot
    rw [if_pos (Classical.not_not.mp hnot)] at heq
    omega

section Expansion

variable (sweep : Sweep) (input extent : Extent)

/-- Spread out to a transposed convolution, each input position starts a window. -/
theorem span_of_expansion (h : (extent.val : Int) = sweep.expansion input) :
    sweep.span extent - sweep.kernel.val = (input.val - 1) * sweep.stride.val := by
  unfold expansion at h
  unfold span
  omega

theorem remainder_of_expansion (h : (extent.val : Int) = sweep.expansion input) :
    sweep.remainder extent = 0 := by
  unfold remainder
  rw [sweep.span_of_expansion input extent h, Int.mul_emod_left]

theorem inside_of_expansion (h : (extent.val : Int) = sweep.expansion input) :
    sweep.inside sweep.kernel.toExtent extent = input.val := by
  have hstride := sweep.stride.lo_le
  unfold inside
  rw [Size.val_toExtent, sweep.span_of_expansion input extent h,
    Int.mul_fdiv_cancel _ (by omega)]
  omega

theorem covering_of_expansion (h : (extent.val : Int) = sweep.expansion input) :
    sweep.covering extent = input.val := by
  rw [covering_eq, sweep.inside_of_expansion input extent h,
    if_pos (sweep.remainder_of_expansion input extent h), Int.add_zero]

/-- Convolution undoes a transposed convolution. -/
theorem convolved_of_expanded (axis : SpatialAxis) (h : sweep.expanded axis input = .ok extent) :
    sweep.convolved sweep.kernel.toExtent axis extent = .ok input := by
  have hextent := (sweep.expanded_eq_ok_iff axis input extent).mp h
  have hspan := sweep.span_of_expansion input extent hextent
  have hinput := input.lo_le
  have hroom : 0 ≤ ((input.val : Int) - 1) * sweep.stride.val :=
    Int.mul_nonneg (by omega) (by omega)
  refine (sweep.convolved_eq_ok_iff _ axis extent input).mpr ⟨?_, ?_⟩
  · rw [Size.val_toExtent]
    omega
  · exact (sweep.inside_of_expansion input extent hextent).symm

/-- Pooling undoes a transposed convolution, and no edge is ignored. -/
theorem pooled_of_expanded (axis : SpatialAxis) (h : sweep.expanded axis input = .ok extent) :
    sweep.pooled axis extent = .ok ⟨input, false⟩ := by
  have hextent := (sweep.expanded_eq_ok_iff axis input extent).mp h
  have hconvolved := sweep.convolved_of_expanded input extent axis h
  obtain ⟨hholds, -⟩ := (sweep.convolved_eq_ok_iff _ axis extent input).mp hconvolved
  refine (sweep.pooled_eq_ok_iff axis extent ⟨input, false⟩).mpr ⟨hholds, ?_, ?_⟩
  · exact (sweep.covering_of_expansion input extent hextent).symm
  · rw [sweep.remainder_of_expansion input extent hextent]
    rfl

/-- A transposed convolution gives back what the windows inside the padded input have covered. -/
theorem expansion_of_inside
    (h : (extent.val : Int) = sweep.inside sweep.kernel.toExtent input) :
    sweep.expansion extent = input.val - sweep.remainder input := by
  have hreach := sweep.reach_inside input
  rw [← h] at hreach
  unfold reach span at hreach
  unfold expansion
  omega

/-- What a transposed convolution gives back is an extent as soon as it is positive. -/
theorem expanded_of_convolved (axis : SpatialAxis)
    (h : sweep.convolved sweep.kernel.toExtent axis input = .ok extent) :
    (∃ restored, sweep.expanded axis extent = .ok restored ∧
      (restored.val : Int) = input.val - sweep.remainder input) ∨
    (input.val : Int) - sweep.remainder input ≤ 0 ∧
      sweep.expanded axis extent =
        .error (.extentNotPositive (input.val - sweep.remainder input) axis) := by
  obtain ⟨-, hinside⟩ := (sweep.convolved_eq_ok_iff _ axis input extent).mp h
  have hrestored := sweep.expansion_of_inside input extent hinside
  have hbounds := sweep.remainder_bounds input
  have hword := input.le_hi
  by_cases hpos : 0 < (input.val : Int) - sweep.remainder input
  · obtain ⟨restored, hval⟩ := Extent.exists_val_eq _ hpos (by omega)
    rw [← hrestored] at hval
    exact Or.inl ⟨restored, (sweep.expanded_eq_ok_iff axis extent restored).mpr hval,
      hval.trans hrestored⟩
  · refine Or.inr ⟨by omega, ?_⟩
    rw [expanded_eq, hrestored]
    exact (Extent.ofInferred_eq_error_iff axis _ _).mpr (Or.inl ⟨by omega, rfl⟩)

end Expansion

end Sweep

end AxisGraph
