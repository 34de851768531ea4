import AxisGraph.Proofs.Operator.Dilation

/-!
The span of a dilated kernel as a stored number. A convolution computes its span from its kernel and
its dilation whenever it needs it. A record that keeps the span beside the two instead has to renew
it with every dilation, in words that may overflow. Both go through the same dilations, refuse the
same one of them, and infer the same in the end; so the stored span never goes stale.
-/

namespace AxisGraph

/-- Span of a kernel under a dilation in checked words: first the product, then one more. -/
def checkedSpan (kernel dilation : Size) : Option Extent := do
  let stretched ← (InRange.ofNat? (dilation.val * (kernel.val - 1)) : Option Word)
  InRange.ofNat? (stretched.val + 1)

theorem checkedSpan_eq_some_iff (kernel dilation : Size) (span : Extent) :
    checkedSpan kernel dilation = some span ↔ span.val = dilatedSpan kernel dilation := by
  unfold checkedSpan dilatedSpan
  simp only [Option.bind_eq_bind, Option.bind_eq_some_iff, InRange.ofNat?_eq_some_iff]
  constructor
  · rintro ⟨stretched, hstretched, hspan⟩
    rw [hspan, hstretched]
  · intro hspan
    -- The product is a word as well, for it is less than the span.
    have hword := span.le_hi
    refine ⟨⟨dilation.val * (kernel.val - 1), Nat.zero_le _, ?_⟩, rfl, hspan⟩
    omega

def checkedSpans (ksize dilation : Spatial Size) : Option (Spatial Extent) :=
  (Spatial.mk (checkedSpan ksize.height dilation.height)
    (checkedSpan ksize.width dilation.width)).all?

theorem checkedSpans_eq_some_iff (ksize dilation : Spatial Size) (spans : Spatial Extent) :
    checkedSpans ksize dilation = some spans ↔
      ∀ axis, (spans.along axis).val = dilatedSpan (ksize.along axis) (dilation.along axis) := by
  unfold checkedSpans
  rw [Spatial.all?_eq_some_iff]
  simp only [SpatialAxis.forall_iff, Spatial.along, checkedSpan_eq_some_iff]

namespace Convolution

/-- A convolution as a record with the span of its kernel in it. The record does not tie the span to
the kernel and the dilation. -/
structure Stored where
  window : Window
  dilation : Spatial Size
  span : Spatial Extent
  deriving DecidableEq

/-- The record of a convolution. -/
def stored (convolution : Convolution) : Stored where
  window := convolution.window
  dilation := convolution.dilation
  span := convolution.dilatedKsize

namespace Stored

def ofParameters (ksize stride padding : Spatial Int) : Except GraphError Stored := do
  let window ← Window.ofParameters kind ksize stride padding
  return { window, dilation := undilated, span := window.ksize.map Size.toExtent }

def withDilation (record : Stored) (dilation : Spatial Int) : Except GraphError Stored := do
  let checked ← Window.checkParameter kind .dilation dilation
  match checkedSpans record.window.ksize checked with
  | some span => .ok { record with dilation := checked, span }
  | none => .error (.invalidParameter kind .dilation (checked.map fun size => (size.val : Int)))

def ofDilations (ksize stride padding : Spatial Int) (dilations : List (Spatial Int)) :
    Except GraphError Stored := do
  let record ← ofParameters ksize stride padding
  dilations.foldlM withDilation record

def image (record : Stored) (name : String) (x w : Tensor) : Except GraphError Image :=
  weightedImage name x w record.window.ksize fun axis =>
    (record.window.along axis).convolved (record.span.along axis) axis

def body (record : Stored) (id : OperatorId) (name : String) : Body Unit := do
  let x ← Body.read "x"
  let w ← Body.read "w"
  let image ← Body.ofExcept (record.image name x w)
  image.body id x

end Stored

theorem stored_ofParameters (ksize stride padding : Spatial Int) :
    Stored.ofParameters ksize stride padding =
      (ofParameters ksize stride padding).map stored := by
  unfold Stored.ofParameters ofParameters
  cases Window.ofParameters kind ksize stride padding with
  | error error => rfl
  | ok window =>
    refine congrArg (fun span => Except.ok (Stored.mk window undilated span)) ?_
    refine Spatial.ext_along fun axis => ?_
    rw [along_dilatedKsize, dilatedAlong_of_undilated _ axis rfl, Spatial.along_map]
    rfl

/-- A new dilation renews the span: the record of the dilated convolution is the dilated record, and
both are refused with the same error. -/
theorem stored_withDilation (convolution : Convolution) (dilation : Spatial Int) :
    convolution.stored.withDilation dilation =
      (convolution.withDilation dilation).map stored := by
  unfold Stored.withDilation withDilation
  cases hchecked : (Window.checkParameter kind .dilation dilation :
      Except GraphError (Spatial Size)) with
  | error error => rfl
  | ok checked =>
    simp only [bind, Except.bind]
    by_cases hfits : ∀ axis, dilatedSpan (convolution.window.ksize.along axis)
        (checked.along axis) ≤ 0xffffffffffffffff
    · let dilated : Convolution := ⟨convolution.window, checked, hfits⟩
      have hspans : checkedSpans convolution.stored.window.ksize checked =
          some dilated.dilatedKsize := by
        refine (checkedSpans_eq_some_iff _ _ _).mpr fun axis => ?_
        rw [along_dilatedKsize]
        rfl
      rw [hspans, dif_pos hfits]
      rfl
    · have hspans : checkedSpans convolution.stored.window.ksize checked = none := by
        refine Option.eq_none_iff_forall_ne_some.mpr fun spans hspans => hfits fun axis => ?_
        have hspan := (checkedSpans_eq_some_iff _ _ _).mp hspans axis
        exact hspan ▸ (spans.along axis).le_hi
      have hgiven : checked.map (fun size => (size.val : Int)) = dilation := by
        refine Spatial.ext_along fun axis => ?_
        rw [Spatial.along_map]
        exact Window.checkParameter_eq_ok_iff.mp hchecked axis
      rw [hspans, dif_neg hfits, hgiven]
      rfl

theorem stored_foldlM (convolution : Convolution) (dilations : List (Spatial Int)) :
    dilations.foldlM Stored.withDilation convolution.stored =
      (dilations.foldlM withDilation convolution).map stored := by
  induction dilations generalizing convolution with
  | nil => rfl
  | cons next rest ih =>
    rw [List.foldlM_cons, List.foldlM_cons, stored_withDilation]
    cases convolution.withDilation next with
    | error error => rfl
    | ok between => exact ih between

theorem stored_ofDilations (ksize stride padding : Spatial Int) (dilations : List (Spatial Int)) :
    Stored.ofDilations ksize stride padding dilations =
      (ofDilations ksize stride padding dilations).map stored := by
  unfold Stored.ofDilations ofDilations
  rw [stored_ofParameters]
  cases ofParameters ksize stride padding with
  | error error => rfl
  | ok plain => exact stored_foldlM plain dilations

theorem body_stored (convolution : Convolution) : convolution.stored.body = convolution.body := by
  funext id name
  exact (convolution.body_eq id name).symm

/-- A convolution that can be built takes just those sequences of dilations that hold nothing but
dilations admitted by its kernel; the first other one is the error. In the end only the last of them
counts, and the span is exact. A record that keeps the span and renews it with every dilation agrees
after each sequence, errors included, and infers the same. -/
theorem ofDilations_settled_by_last (ksize stride padding : Spatial Int) (plain : Convolution)
    (hplain : ofParameters ksize stride padding = .ok plain) (dilations : List (Spatial Int)) :
    ((∃ convolution, ofDilations ksize stride padding dilations = .ok convolution) ↔
      ∀ dilation ∈ dilations, Admits ksize dilation) ∧
    (∀ before dilation after, dilations = before ++ dilation :: after →
      (∀ earlier ∈ before, Admits ksize earlier) → ¬ Admits ksize dilation →
      ofDilations ksize stride padding dilations =
        .error (.invalidParameter kind .dilation dilation)) ∧
    (∀ convolution, ofDilations ksize stride padding dilations = .ok convolution →
      convolution.window = plain.window ∧
      convolution.Dilates (dilations.getLastD (.both 1)) ∧
      (∀ axis, ((convolution.dilatedKsize.along axis).val : Int) =
        (dilations.getLastD (.both 1)).along axis * (ksize.along axis - 1) + 1) ∧
      convolution.stored.body = convolution.body ∧
      ∀ others other, ofDilations ksize stride padding others = .ok other →
        others.getLastD (.both 1) = dilations.getLastD (.both 1) → other = convolution) ∧
    Stored.ofDilations ksize stride padding dilations =
      (ofDilations ksize stride padding dilations).map stored := by
  obtain ⟨-, htakes⟩ := plain.ofParameters_eq_ok_iff.mp hplain
  have hrun : ofDilations ksize stride padding dilations =
      dilations.foldlM withDilation plain := by
    rw [ofDilations, hplain]
    rfl
  refine ⟨?_, ?_, ?_, stored_ofDilations ksize stride padding dilations⟩
  · rw [hrun]
    exact exists_foldlM_withDilation_iff dilations htakes
  · rintro before dilation after rfl hbefore hnot
    rw [hrun]
    exact foldlM_withDilation_of_not_admits before after htakes hbefore hnot
  · intro convolution hconvolution
    obtain ⟨htakes', hdilates⟩ := ofDilations_eq_ok _ _ _ _ convolution hconvolution
    refine ⟨htakes'.unique htakes, hdilates, ?_, convolution.body_stored, ?_⟩
    · intro axis
      rw [along_dilatedKsize]
      exact val_dilatedAlong_of_dilates htakes' hdilates axis
    · intro others other hother hlast
      obtain ⟨htakes'', hdilates'⟩ := ofDilations_eq_ok _ _ _ _ other hother
      rw [hlast] at hdilates'
      exact hdilates'.unique hdilates (htakes''.unique htakes')

/-- Under the greatest dilation, three positions span just as much as a word can hold, and four
positions too much. -/
theorem ofDilations_settled_by_last_oblong :
    (∃ plain, ofParameters ⟨3, 4⟩ (.both 1) (.both 0) = .ok plain) ∧
    (∃ convolution, ofDilations ⟨3, 4⟩ (.both 1) (.both 0) [.both 2, ⟨0x7fffffffffffffff, 1⟩] =
        .ok convolution ∧
      Stored.ofDilations ⟨3, 4⟩ (.both 1) (.both 0) [.both 2, ⟨0x7fffffffffffffff, 1⟩] =
        .ok convolution.stored ∧
      ∀ axis, ((convolution.dilatedKsize.along axis).val : Int) =
        (⟨0xffffffffffffffff, 4⟩ : Spatial Int).along axis) ∧
    ofDilations ⟨3, 4⟩ (.both 1) (.both 0) [.both 2, .both 0x7fffffffffffffff, .both 1] =
      .error (.invalidParameter kind .dilation (.both 0x7fffffffffffffff)) := by
  obtain ⟨plain, hplain⟩ : ∃ plain, ofParameters ⟨3, 4⟩ (.both 1) (.both 0) = .ok plain :=
    ⟨_, rfl⟩
  obtain ⟨haccepted, -, hlast, hstored⟩ := ofDilations_settled_by_last _ _ _ plain hplain
    [.both 2, ⟨0x7fffffffffffffff, 1⟩]
  obtain ⟨-, hrefused, -, -⟩ := ofDilations_settled_by_last _ _ _ plain hplain
    [.both 2, .both 0x7fffffffffffffff, .both 1]
  obtain ⟨convolution, hconvolution⟩ := haccepted.mpr (by decide)
  obtain ⟨-, -, hspan, -, -⟩ := hlast convolution hconvolution
  rw [hconvolution] at hstored
  refine ⟨⟨plain, hplain⟩, ⟨convolution, hconvolution, hstored, ?_⟩, ?_⟩
  · intro axis
    rw [hspan axis]
    revert axis
    decide
  · exact hrefused [.both 2] _ [.both 1] rfl (by decide) (by decide)

end Convolution

end AxisGraph
