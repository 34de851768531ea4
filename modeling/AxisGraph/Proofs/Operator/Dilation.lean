import AxisGraph.Proofs.Operator.Acceptance

/-!
Convolutions with a dilation. Each dilation takes the place of the one before, and the window stays
what it was; so a convolution depends on the last of its dilations only, and its kernel admits a
dilation or not whatever came before.
-/

namespace AxisGraph.Convolution

/-- A convolution that is given these dilations one after the other. -/
def ofDilations (ksize stride padding : Spatial Int) (dilations : List (Spatial Int)) :
    Except GraphError Convolution := do
  let convolution ← ofParameters ksize stride padding
  dilations.foldlM withDilation convolution

/-- Span of the kernel under the dilation, as an integer. -/
def dilatedKernel (convolution : Convolution) (axis : SpatialAxis) : Int :=
  (convolution.dilation.along axis).val * ((convolution.window.ksize.along axis).val - 1) + 1

theorem val_dilatedAlong (convolution : Convolution) (axis : SpatialAxis) :
    ((convolution.dilatedAlong axis).val : Int) = convolution.dilatedKernel axis := by
  have hksize := (convolution.window.ksize.along axis).lo_le
  have hval : (convolution.dilatedAlong axis).val = (convolution.dilation.along axis).val *
    ((convolution.window.ksize.along axis).val - 1) + 1 := rfl
  rw [hval, dilatedKernel, Int.natCast_add, Int.natCast_mul, Int.natCast_sub hksize]
  rfl

theorem along_dilatedKsize (convolution : Convolution) (axis : SpatialAxis) :
    convolution.dilatedKsize.along axis = convolution.dilatedAlong axis := by
  cases axis <;> rfl

/-- The dilation consists of these numbers. -/
def Dilates (convolution : Convolution) (dilation : Spatial Int) : Prop :=
  ∀ axis, ((convolution.dilation.along axis).val : Int) = dilation.along axis

theorem withDilation_eq_ok (convolution dilated : Convolution) (dilation : Spatial Int)
    (h : convolution.withDilation dilation = .ok dilated) :
    dilated.window = convolution.window ∧ dilated.Dilates dilation := by
  obtain ⟨checked, hchecked, h⟩ := (bind_eq_ok_iff _ _ dilated).mp h
  have hdilation := Window.checkParameter_eq_ok_iff.mp hchecked
  split at h
  · cases h
    exact ⟨rfl, hdilation⟩
  · cases h

theorem foldlM_withDilation (convolution dilated : Convolution) (dilations : List (Spatial Int))
    (dilation : Spatial Int) (hdilates : convolution.Dilates dilation)
    (h : dilations.foldlM withDilation convolution = .ok dilated) :
    dilated.window = convolution.window ∧ dilated.Dilates (dilations.getLastD dilation) := by
  induction dilations generalizing convolution dilation with
  | nil =>
    cases h
    exact ⟨rfl, hdilates⟩
  | cons next rest ih =>
    rw [List.foldlM_cons] at h
    obtain ⟨between, hnext, hrest⟩ := (bind_eq_ok_iff _ _ dilated).mp h
    obtain ⟨hwindow, hbetween⟩ := convolution.withDilation_eq_ok between next hnext
    obtain ⟨hwindow', hdilated⟩ := ih between next hbetween hrest
    rw [List.getLastD_cons]
    exact ⟨hwindow'.trans hwindow, hdilated⟩

theorem ofDilations_eq_ok (ksize stride padding : Spatial Int) (dilations : List (Spatial Int))
    (convolution : Convolution)
    (h : ofDilations ksize stride padding dilations = .ok convolution) :
    convolution.window.Takes ksize stride padding ∧
      convolution.Dilates (dilations.getLastD (.both 1)) := by
  obtain ⟨plain, hplain, hrest⟩ := (bind_eq_ok_iff _ _ convolution).mp h
  obtain ⟨hdilation, htakes⟩ := plain.ofParameters_eq_ok_iff.mp hplain
  have hone : plain.Dilates (.both 1) := by
    unfold Dilates
    rw [hdilation]
    exact SpatialAxis.forall_iff.mpr ⟨rfl, rfl⟩
  obtain ⟨hwindow, hdilates⟩ := plain.foldlM_withDilation convolution dilations _ hone hrest
  exact ⟨hwindow ▸ htakes, hdilates⟩

/-- The dilation can be given to a kernel of this size: it is in range, and the span fits in a
word. -/
def Admits (ksize dilation : Spatial Int) : Prop :=
  ∀ axis, 1 ≤ dilation.along axis ∧ dilation.along axis ≤ 0x7fffffffffffffff ∧
    dilation.along axis * (ksize.along axis - 1) + 1 ≤ 0xffffffffffffffff

instance (ksize dilation : Spatial Int) : Decidable (Admits ksize dilation) :=
  inferInstanceAs (Decidable (∀ _, _))

/-- The window and the dilation are all that there is to a convolution. -/
theorem Dilates.unique {convolution other : Convolution} {dilation : Spatial Int}
    (h : convolution.Dilates dilation) (h' : other.Dilates dilation)
    (hwindow : convolution.window = other.window) : convolution = other := by
  have hdilation : convolution.dilation = other.dilation := Spatial.eq_of_vals h h'
  cases convolution
  cases other
  cases hwindow
  cases hdilation
  rfl

section

variable {ksize stride padding dilation : Spatial Int} {convolution : Convolution}

theorem val_dilatedAlong_of_dilates (h : convolution.window.Takes ksize stride padding)
    (hdilates : convolution.Dilates dilation) (axis : SpatialAxis) :
    ((convolution.dilatedAlong axis).val : Int) =
      dilation.along axis * (ksize.along axis - 1) + 1 := by
  rw [val_dilatedAlong, dilatedKernel, hdilates axis, h.ksize_eq axis]

theorem admits_of_dilates (h : convolution.window.Takes ksize stride padding)
    (hdilates : convolution.Dilates dilation) : Admits ksize dilation := by
  intro axis
  have hlo := (convolution.dilation.along axis).lo_le
  have hhi := (convolution.dilation.along axis).le_hi
  have hspan := (convolution.dilatedAlong axis).le_hi
  have hval := val_dilatedAlong_of_dilates h hdilates axis
  rw [← hval, ← hdilates axis]
  omega

theorem exists_dilates_of_admits (h : convolution.window.Takes ksize stride padding)
    (hadmits : Admits ksize dilation) :
    ∃ dilated : Convolution, dilated.window = convolution.window ∧ dilated.Dilates dilation := by
  have hsizes : ∀ axis, ∃ size : Size, (size.val : Int) = dilation.along axis := by
    intro axis
    obtain ⟨hlo, hhi, -⟩ := hadmits axis
    exact ⟨⟨(dilation.along axis).toNat, by omega, by omega⟩, by dsimp only; omega⟩
  obtain ⟨height, hheight⟩ := hsizes .height
  obtain ⟨width, hwidth⟩ := hsizes .width
  have hdilation : ∀ axis, (((Spatial.mk height width).along axis).val : Int) =
      dilation.along axis := SpatialAxis.forall_iff.mpr ⟨hheight, hwidth⟩
  have hfits : ∀ axis, dilatedSpan (convolution.window.ksize.along axis)
      ((Spatial.mk height width).along axis) ≤ 0xffffffffffffffff := by
    intro axis
    obtain ⟨-, -, hspan⟩ := hadmits axis
    have hksize := (convolution.window.ksize.along axis).lo_le
    rw [← hdilation axis, ← h.ksize_eq axis] at hspan
    rw [dilatedSpan, ← Int.ofNat_le, Int.natCast_add, Int.natCast_mul, Int.natCast_sub hksize]
    exact hspan
  exact ⟨⟨convolution.window, ⟨height, width⟩, hfits⟩, rfl, hdilation⟩

theorem withDilation_eq_ok_iff (dilated : Convolution) :
    convolution.withDilation dilation = .ok dilated ↔
      dilated.window = convolution.window ∧ dilated.Dilates dilation := by
  refine ⟨convolution.withDilation_eq_ok dilated dilation, ?_⟩
  rintro ⟨hwindow, hdilates⟩
  have hchecked : Window.checkParameter kind .dilation dilation = .ok dilated.dilation :=
    Window.checkParameter_eq_ok_iff.mpr hdilates
  unfold withDilation
  rw [hchecked]
  refine (dif_pos (hwindow ▸ dilated.fits)).trans ?_
  obtain ⟨window, dilation, fits⟩ := dilated
  cases hwindow
  rfl

theorem exists_withDilation_iff (h : convolution.window.Takes ksize stride padding) :
    (∃ dilated, convolution.withDilation dilation = .ok dilated) ↔ Admits ksize dilation := by
  simp only [withDilation_eq_ok_iff]
  constructor
  · rintro ⟨dilated, hwindow, hdilates⟩
    exact admits_of_dilates (hwindow ▸ h) hdilates
  · exact exists_dilates_of_admits h

/-- Out of range or too long a span, the error names the dilation as it was given. -/
theorem withDilation_eq_error (error : GraphError)
    (h : convolution.withDilation dilation = .error error) :
    error = .invalidParameter kind .dilation dilation := by
  unfold withDilation at h
  cases hchecked : (Window.checkParameter kind .dilation dilation :
      Except GraphError (Spatial Size)) with
  | error refused =>
    rw [hchecked] at h
    cases h
    exact Window.checkParameter_eq_error hchecked
  | ok checked =>
    simp only [hchecked, bind, Except.bind] at h
    split at h
    · cases h
    · exact (Except.error.inj h).symm

theorem withDilation_of_not_admits (h : convolution.window.Takes ksize stride padding)
    (hnot : ¬ Admits ksize dilation) :
    convolution.withDilation dilation = .error (.invalidParameter kind .dilation dilation) := by
  cases hresult : convolution.withDilation dilation with
  | ok dilated => exact absurd ((exists_withDilation_iff h).mp ⟨dilated, hresult⟩) hnot
  | error error => rw [withDilation_eq_error error hresult]

/-- The window stays what it was, so the kernel decides on each dilation by itself. -/
theorem exists_foldlM_withDilation_iff (dilations : List (Spatial Int))
    (h : convolution.window.Takes ksize stride padding) :
    (∃ dilated, dilations.foldlM withDilation convolution = .ok dilated) ↔
      ∀ dilation ∈ dilations, Admits ksize dilation := by
  induction dilations generalizing convolution with
  | nil => exact iff_of_true ⟨convolution, rfl⟩ (by simp)
  | cons next rest ih =>
    rw [List.forall_mem_cons, List.foldlM_cons, ← exists_withDilation_iff h]
    simp only [bind_eq_ok_iff]
    constructor
    · rintro ⟨dilated, between, hnext, hrest⟩
      obtain ⟨hwindow, -⟩ := convolution.withDilation_eq_ok between next hnext
      exact ⟨⟨between, hnext⟩, (ih (hwindow ▸ h)).mp ⟨dilated, hrest⟩⟩
    · rintro ⟨⟨between, hnext⟩, hrest⟩
      obtain ⟨hwindow, -⟩ := convolution.withDilation_eq_ok between next hnext
      obtain ⟨dilated, hdilated⟩ := (ih (hwindow ▸ h)).mpr hrest
      exact ⟨dilated, between, hnext, hdilated⟩

/-- The first dilation that the kernel does not admit ends the sequence. -/
theorem foldlM_withDilation_of_not_admits (before after : List (Spatial Int))
    (h : convolution.window.Takes ksize stride padding)
    (hbefore : ∀ earlier ∈ before, Admits ksize earlier) (hnot : ¬ Admits ksize dilation) :
    (before ++ dilation :: after).foldlM withDilation convolution =
      .error (.invalidParameter kind .dilation dilation) := by
  induction before generalizing convolution with
  | nil =>
    rw [List.nil_append, List.foldlM_cons, withDilation_of_not_admits h hnot]
    rfl
  | cons first rest ih =>
    obtain ⟨hfirst, hrest⟩ := List.forall_mem_cons.mp hbefore
    obtain ⟨between, hbetween⟩ := (exists_withDilation_iff h).mpr hfirst
    obtain ⟨hwindow, -⟩ := convolution.withDilation_eq_ok between first hbetween
    rw [List.cons_append, List.foldlM_cons, hbetween]
    exact ih (hwindow ▸ h) hrest

end

end AxisGraph.Convolution
