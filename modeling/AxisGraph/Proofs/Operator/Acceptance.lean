import AxisGraph.Proofs.Operator.Inference

/-!
Construction of the operators that have a window. Whatever its kind, an operator is accepted for the
same parameters, and its window then consists of just these. So operators that were constructed from
equal parameters share their window.
-/

namespace AxisGraph

/-- Numbers in range are the same if they are the same integers. -/
theorem Spatial.eq_of_vals {lo hi : Nat} {p q : Spatial (InRange lo hi)} {numbers : Spatial Int}
    (h : ∀ axis, ((p.along axis).val : Int) = numbers.along axis)
    (h' : ∀ axis, ((q.along axis).val : Int) = numbers.along axis) : p = q :=
  ext_along fun axis => InRange.ext (Int.ofNat.inj ((h axis).trans (h' axis).symm))

/-- The window consists of these parameters. -/
structure Window.Takes (window : Window) (ksize stride padding : Spatial Int) : Prop where
  ksize_eq : ∀ axis, ((window.ksize.along axis).val : Int) = ksize.along axis
  stride_eq : ∀ axis, ((window.stride.along axis).val : Int) = stride.along axis
  padding_eq : ∀ axis, ((window.padding.along axis).val : Int) = padding.along axis

namespace Window

variable {ksize stride padding : Spatial Int} {window other : Window}

theorem Takes.unique (h : window.Takes ksize stride padding)
    (h' : other.Takes ksize stride padding) : window = other := by
  have hksize : window.ksize = other.ksize := Spatial.eq_of_vals h.ksize_eq h'.ksize_eq
  have hstride : window.stride = other.stride := Spatial.eq_of_vals h.stride_eq h'.stride_eq
  have hpadding : window.padding = other.padding := Spatial.eq_of_vals h.padding_eq h'.padding_eq
  cases window
  cases other
  simp only [Window.mk.injEq]
  exact ⟨hksize, hstride, hpadding⟩

theorem ofParameters_eq_ok_iff (kind : String) :
    Window.ofParameters kind ksize stride padding = .ok window ↔
      window.Takes ksize stride padding := by
  unfold Window.ofParameters
  simp only [bind_eq_ok_iff, checkParameter_eq_ok_iff]
  constructor
  · rintro ⟨checked, hksize, checked', hstride, checked'', hpadding, ⟨⟩⟩
    exact ⟨hksize, hstride, hpadding⟩
  · intro h
    exact ⟨_, h.ksize_eq, _, h.stride_eq, _, h.padding_eq, rfl⟩

theorem checkParameter_eq_error {lo hi : Nat} {kind : String} {parameter : WindowParameter}
    {value : Spatial Int} {error : GraphError}
    (h : (checkParameter kind parameter value : Except GraphError (Spatial (InRange lo hi))) =
      .error error) :
    error = .invalidParameter kind parameter value := by
  unfold checkParameter at h
  split at h
  · cases h
  · exact (Except.error.inj h).symm

end Window

variable {ksize stride padding : Spatial Int}

theorem Pooling.ofParameters_eq_ok_iff (kind : PoolingKind) (pooling : Pooling) :
    Pooling.ofParameters kind ksize stride padding = .ok pooling ↔
      pooling.kind = kind ∧ pooling.window.Takes ksize stride padding := by
  unfold Pooling.ofParameters
  simp only [bind_eq_ok_iff, Window.ofParameters_eq_ok_iff]
  constructor
  · rintro ⟨window, htakes, ⟨⟩⟩
    exact ⟨rfl, htakes⟩
  · rintro ⟨rfl, htakes⟩
    exact ⟨pooling.window, htakes, rfl⟩

theorem Convolution.ofParameters_eq_ok_iff (convolution : Convolution) :
    Convolution.ofParameters ksize stride padding = .ok convolution ↔
      convolution.dilation = undilated ∧ convolution.window.Takes ksize stride padding := by
  unfold Convolution.ofParameters
  simp only [bind_eq_ok_iff, Window.ofParameters_eq_ok_iff]
  constructor
  · rintro ⟨window, htakes, ⟨⟩⟩
    exact ⟨rfl, htakes⟩
  · obtain ⟨window, dilation, fits⟩ := convolution
    rintro ⟨rfl, htakes⟩
    exact ⟨window, htakes, rfl⟩

theorem Deconvolution.ofParameters_eq_ok_iff (deconvolution : Deconvolution) :
    Deconvolution.ofParameters ksize stride padding = .ok deconvolution ↔
      deconvolution.window.Takes ksize stride padding := by
  unfold Deconvolution.ofParameters
  simp only [bind_eq_ok_iff, Window.ofParameters_eq_ok_iff]
  constructor
  · rintro ⟨window, htakes, ⟨⟩⟩
    exact htakes
  · intro htakes
    exact ⟨deconvolution.window, htakes, rfl⟩

/-- Without dilation the kernel is the one of the window. -/
theorem Convolution.dilatedAlong_of_undilated (convolution : Convolution) (axis : SpatialAxis)
    (h : convolution.dilation = undilated) :
    convolution.dilatedAlong axis = (convolution.window.along axis).kernel.toExtent := by
  have hone : undilated.along axis = { val := 1 } := by
    cases axis <;> rfl
  refine InRange.ext ?_
  change dilatedSpan _ _ = _
  rw [h, hone, dilatedSpan_one]
  rfl

end AxisGraph
