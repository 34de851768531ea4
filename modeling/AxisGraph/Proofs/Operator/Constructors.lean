import AxisGraph.Proofs.Operator.Acceptance

/-!
Arguments of the constructors that build an operator around a window. A window argument is written
in one of four forms, and only the numbers that it stands for count. All the constructors accept the
same numbers and store the same window for them, and what one of them refuses, the others refuse on
account of the same parameter.
-/

namespace AxisGraph

/-- A window argument as it is written: one number for both axes or one for each, either signed or
unsigned. -/
inductive SpatialArgument where
  | int32 (value : Int32)
  | int32s (height width : Int32)
  | word (value : Word)
  | words (height width : Word)

namespace SpatialArgument

/-- The pair that a constructor makes of the argument. -/
def pair : SpatialArgument → Spatial Int
  | int32 value => .ofInt32 value
  | int32s height width => .ofInt32s height width
  | word value => .ofWord value
  | words height width => .ofWords height width

/-- The number written for an axis. -/
def number : SpatialArgument → SpatialAxis → Int
  | int32 value, _ => value.toInt
  | int32s height _, .height => height.toInt
  | int32s _ width, .width => width.toInt
  | word value, _ => value.val
  | words height _, .height => height.val
  | words _ width, .width => width.val

@[simp]
theorem along_pair (argument : SpatialArgument) (axis : SpatialAxis) :
    argument.pair.along axis = argument.number axis := by
  cases argument <;> cases axis <;> rfl

theorem pair_eq_of_numbers {argument other : SpatialArgument}
    (h : ∀ axis, argument.number axis = other.number axis) : argument.pair = other.pair :=
  Spatial.ext_along fun axis => by rw [along_pair, along_pair, h]

/-- Both numbers are at least this one and at most the largest signed 64-bit number. -/
def IsFrom (least : Nat) (argument : SpatialArgument) : Prop :=
  ∀ axis, (least : Int) ≤ argument.number axis ∧ argument.number axis ≤ 0x7fffffffffffffff

instance (least : Nat) (argument : SpatialArgument) : Decidable (argument.IsFrom least) :=
  inferInstanceAs (Decidable (∀ _, _))

variable {kind : String} {parameter : WindowParameter} {least : Nat} {argument : SpatialArgument}

theorem isFrom_iff : argument.IsFrom least ↔
    ∃ checked : Spatial (InRange least 0x7fffffffffffffff),
      ∀ axis, ((checked.along axis).val : Int) = argument.pair.along axis := by
  simp only [along_pair]
  constructor
  · intro h
    obtain ⟨hheight, hheight'⟩ := h .height
    obtain ⟨hwidth, hwidth'⟩ := h .width
    refine ⟨⟨{ val := (argument.number .height).toNat },
      { val := (argument.number .width).toNat }⟩, ?_⟩
    intro axis
    cases axis
    · exact Int.toNat_of_nonneg (by omega)
    · exact Int.toNat_of_nonneg (by omega)
  · rintro ⟨checked, hchecked⟩ axis
    have hval := hchecked axis
    have hlo := (checked.along axis).lo_le
    have hhi := (checked.along axis).le_hi
    omega

theorem exists_checkParameter (h : argument.IsFrom least) :
    ∃ checked : Spatial (InRange least 0x7fffffffffffffff),
      Window.checkParameter kind parameter argument.pair = .ok checked := by
  simpa only [Window.checkParameter_eq_ok_iff] using isFrom_iff.mp h

theorem checkParameter_of_not_isFrom (h : ¬argument.IsFrom least) :
    (Window.checkParameter kind parameter argument.pair :
      Except GraphError (Spatial (InRange least 0x7fffffffffffffff))) =
      .error (.invalidParameter kind parameter argument.pair) := by
  cases hcheck : (Window.checkParameter kind parameter argument.pair :
      Except GraphError (Spatial (InRange least 0x7fffffffffffffff))) with
  | ok checked => exact absurd (isFrom_iff.mpr ⟨_, Window.checkParameter_eq_ok_iff.mp hcheck⟩) h
  | error error => rw [Window.checkParameter_eq_error hcheck]

end SpatialArgument

/-- A parameter is out of range, and all that are checked before it are in range. -/
inductive FirstInvalid (ksize stride padding : SpatialArgument) :
    WindowParameter → SpatialArgument → Prop where
  | ksize : ¬ksize.IsFrom 1 → FirstInvalid ksize stride padding .ksize ksize
  | stride : ksize.IsFrom 1 → ¬stride.IsFrom 1 →
    FirstInvalid ksize stride padding .stride stride
  | padding : ksize.IsFrom 1 → stride.IsFrom 1 → ¬padding.IsFrom 0 →
    FirstInvalid ksize stride padding .padding padding

/-- All parameters are in range: no kernel or stride may be zero, a padding may. -/
structure Admissible (ksize stride padding : SpatialArgument) : Prop where
  ksize : ksize.IsFrom 1
  stride : stride.IsFrom 1
  padding : padding.IsFrom 0

/-- The window has the numbers that are written in the arguments, both in its pairs and along each
axis. -/
structure Window.Stores (window : Window) (ksize stride padding : SpatialArgument) : Prop where
  ksize_eq : window.ksize.map (fun size => (size.val : Int)) =
    ⟨ksize.number .height, ksize.number .width⟩
  stride_eq : window.stride.map (fun size => (size.val : Int)) =
    ⟨stride.number .height, stride.number .width⟩
  padding_eq : window.padding.map (fun margin => (margin.val : Int)) =
    ⟨padding.number .height, padding.number .width⟩
  along : ∀ axis, ((window.along axis).kernel.val : Int) = ksize.number axis ∧
    ((window.along axis).stride.val : Int) = stride.number axis ∧
    ((window.along axis).padding.val : Int) = padding.number axis

namespace Window

variable {kind : String} {ksize stride padding : SpatialArgument} {window : Window}

theorem Takes.stores (h : window.Takes ksize.pair stride.pair padding.pair) :
    window.Stores ksize stride padding := by
  have hksize := h.ksize_eq
  have hstride := h.stride_eq
  have hpadding := h.padding_eq
  simp only [SpatialArgument.along_pair] at hksize hstride hpadding
  exact {
    ksize_eq := by rw [← hksize .height, ← hksize .width]; rfl
    stride_eq := by rw [← hstride .height, ← hstride .width]; rfl
    padding_eq := by rw [← hpadding .height, ← hpadding .width]; rfl
    along := fun axis => ⟨hksize axis, hstride axis, hpadding axis⟩ }

theorem exists_takes_of_admissible (h : Admissible ksize stride padding) :
    ∃ window : Window, window.Takes ksize.pair stride.pair padding.pair := by
  obtain ⟨size, hsize⟩ := SpatialArgument.isFrom_iff.mp h.ksize
  obtain ⟨step, hstep⟩ := SpatialArgument.isFrom_iff.mp h.stride
  obtain ⟨margin, hmargin⟩ := SpatialArgument.isFrom_iff.mp h.padding
  exact ⟨⟨size, step, margin⟩, hsize, hstep, hmargin⟩

theorem ofParameters_of_firstInvalid {parameter : WindowParameter} {argument : SpatialArgument}
    (h : FirstInvalid ksize stride padding parameter argument) (kind : String) :
    ofParameters kind ksize.pair stride.pair padding.pair =
      .error (.invalidParameter kind parameter argument.pair) := by
  unfold ofParameters
  cases h with
  | ksize hksize =>
    rw [SpatialArgument.checkParameter_of_not_isFrom hksize]
    rfl
  | stride hksize hstride =>
    obtain ⟨size, hsize⟩ := SpatialArgument.exists_checkParameter hksize
    rw [hsize, SpatialArgument.checkParameter_of_not_isFrom hstride]
    rfl
  | padding hksize hstride hpadding =>
    obtain ⟨size, hsize⟩ := SpatialArgument.exists_checkParameter hksize
    obtain ⟨step, hstep⟩ := SpatialArgument.exists_checkParameter hstride
    rw [hsize, hstep, SpatialArgument.checkParameter_of_not_isFrom hpadding]
    rfl

end Window

theorem exists_firstInvalid {ksize stride padding : SpatialArgument}
    (h : ¬Admissible ksize stride padding) :
    ∃ parameter argument, FirstInvalid ksize stride padding parameter argument := by
  by_cases hksize : ksize.IsFrom 1
  · by_cases hstride : stride.IsFrom 1
    · exact ⟨_, _, .padding hksize hstride fun hpadding => h ⟨hksize, hstride, hpadding⟩⟩
    · exact ⟨_, _, .stride hksize hstride⟩
  · exact ⟨_, _, .ksize hksize⟩

/-- The constructors of the operators that have a window. -/
inductive SpatialConstructor where
  | maxPooling
  | averagePooling (divideWithoutPadding : Bool)
  | convolution
  | deconvolution

namespace SpatialConstructor

def kind : SpatialConstructor → String
  | maxPooling => PoolingKind.max.name
  | averagePooling divideWithoutPadding => (PoolingKind.average divideWithoutPadding).name
  | convolution => Convolution.kind
  | deconvolution => Deconvolution.kind

/-- What the constructor makes of its arguments. -/
def build (constructor : SpatialConstructor) (ksize stride padding : SpatialArgument) :
    Except GraphError Parameters :=
  match constructor with
  | maxPooling => (Pooling.max ksize.pair stride.pair padding.pair).map .pooling
  | averagePooling divideWithoutPadding =>
    (Pooling.average ksize.pair stride.pair padding.pair divideWithoutPadding).map .pooling
  | convolution =>
    (Convolution.ofParameters ksize.pair stride.pair padding.pair).map .convolution
  | deconvolution =>
    (Deconvolution.ofParameters ksize.pair stride.pair padding.pair).map .deconvolution

/-- The operator of this kind around a window. -/
def around (constructor : SpatialConstructor) (window : Window) : Parameters :=
  match constructor with
  | maxPooling => .pooling ⟨.max, window⟩
  | averagePooling divideWithoutPadding => .pooling ⟨.average divideWithoutPadding, window⟩
  | convolution =>
    .convolution ⟨window, Convolution.undilated, Convolution.fits_undilated window⟩
  | deconvolution => .deconvolution ⟨window⟩

@[simp]
theorem window?_around (constructor : SpatialConstructor) (window : Window) :
    (constructor.around window).window? = some window := by
  cases constructor <;> rfl

variable {ksize stride padding : SpatialArgument}

theorem map_bind_pure {α β γ : Type} (result : Except GraphError α) (f : α → β) (g : β → γ) :
    (result >>= fun value => pure (f value)).map g = result.map fun value => g (f value) := by
  cases result <;> rfl

/-- A constructor builds a window in the name of its kind, and adds nothing that could fail. -/
theorem build_eq (constructor : SpatialConstructor) (ksize stride padding : SpatialArgument) :
    constructor.build ksize stride padding =
      (Window.ofParameters constructor.kind ksize.pair stride.pair padding.pair).map
        constructor.around := by
  cases constructor with
  | maxPooling => exact map_bind_pure _ _ _
  | averagePooling divideWithoutPadding => exact map_bind_pure _ _ _
  | convolution => exact map_bind_pure _ _ _
  | deconvolution => exact map_bind_pure _ _ _

/-- Either every constructor accepts the arguments and stores the numbers written in them, or every
constructor refuses the first argument that is out of range, in the name of its own kind. How the
numbers are written makes no difference. -/
theorem build_agrees (ksize stride padding : SpatialArgument) :
    (Admissible ksize stride padding → ∃ window : Window, window.Stores ksize stride padding ∧
      ∀ constructor : SpatialConstructor,
        constructor.build ksize stride padding = .ok (constructor.around window) ∧
          (constructor.around window).window? = some window) ∧
      (¬Admissible ksize stride padding → ∃ parameter argument,
        FirstInvalid ksize stride padding parameter argument ∧
          ∀ constructor : SpatialConstructor, constructor.build ksize stride padding =
            .error (.invalidParameter constructor.kind parameter argument.pair)) ∧
      ∀ ksize' stride' padding' : SpatialArgument,
        (∀ axis, ksize'.number axis = ksize.number axis) →
        (∀ axis, stride'.number axis = stride.number axis) →
        (∀ axis, padding'.number axis = padding.number axis) →
        ∀ constructor : SpatialConstructor,
          constructor.build ksize' stride' padding' = constructor.build ksize stride padding := by
  refine ⟨?_, ?_, ?_⟩
  · intro h
    obtain ⟨window, htakes⟩ := Window.exists_takes_of_admissible h
    refine ⟨window, htakes.stores, ?_⟩
    intro constructor
    refine ⟨?_, constructor.window?_around window⟩
    rw [build_eq, (Window.ofParameters_eq_ok_iff constructor.kind).mpr htakes]
    rfl
  · intro h
    obtain ⟨parameter, argument, hfirst⟩ := exists_firstInvalid h
    refine ⟨parameter, argument, hfirst, ?_⟩
    intro constructor
    rw [build_eq, Window.ofParameters_of_firstInvalid hfirst]
    rfl
  · intro ksize' stride' padding' hksize hstride hpadding constructor
    rw [build_eq, build_eq, SpatialArgument.pair_eq_of_numbers hksize,
      SpatialArgument.pair_eq_of_numbers hstride, SpatialArgument.pair_eq_of_numbers hpadding]

/-- An oblong kernel is accepted, a stride beyond the signed range is reported before the negative
padding, and signed scalars mean the same as unsigned pairs. -/
theorem build_agrees_oblong :
    (∃ window : Window, window.ksize.map (fun size => (size.val : Int)) = ⟨23, 29⟩ ∧
      ∀ constructor : SpatialConstructor,
        constructor.build (.words { val := 23 } { val := 29 }) (.int32 2) (.word { val := 41 }) =
          .ok (constructor.around window)) ∧
      (∀ constructor : SpatialConstructor,
        constructor.build (.int32 2) (.words { val := 0x8000000000000000 } { val := 43 })
          (.int32 (-1)) =
          .error (.invalidParameter constructor.kind .stride ⟨0x8000000000000000, 43⟩)) ∧
      ∀ constructor : SpatialConstructor,
        constructor.build (.int32 47) (.int32 43) (.int32 0) =
          constructor.build (.words { val := 47 } { val := 47 }) (.word { val := 43 })
            (.int32s 0 0) := by
  refine ⟨?_, ?_, ?_⟩
  · obtain ⟨haccepted, -, -⟩ :=
      build_agrees (.words { val := 23 } { val := 29 }) (.int32 2) (.word { val := 41 })
    obtain ⟨window, hstores, hbuilt⟩ := haccepted ⟨by decide, by decide, by decide⟩
    exact ⟨window, hstores.ksize_eq, fun constructor => (hbuilt constructor).1⟩
  · obtain ⟨-, hrefused, -⟩ := build_agrees (.int32 2)
      (.words { val := 0x8000000000000000 } { val := 43 }) (.int32 (-1))
    obtain ⟨parameter, argument, hfirst, hbuilt⟩ := hrefused fun h => absurd h.stride (by decide)
    cases hfirst with
    | ksize hksize => exact absurd (by decide) hksize
    | stride hksize hstride => exact hbuilt
    | padding hksize hstride hpadding => exact absurd hstride (by decide)
  · obtain ⟨-, -, hsame⟩ :=
      build_agrees (.words { val := 47 } { val := 47 }) (.word { val := 43 }) (.int32s 0 0)
    exact hsame (.int32 47) (.int32 43) (.int32 0) (by decide) (by decide) (by decide)

end SpatialConstructor

end AxisGraph
