import AxisGraph.Proofs.Tensor
import Mathlib.Data.List.Dedup
import Mathlib.Data.List.Sort

/-!
Tensors read by index. The accessors of a tensor look up where an axis stands and read the shape at
that place without a check of their own, and a change of layout builds its tensor without the checks
of a new one. Here the same is done on plain lists, where a read can miss; what the lists of a
tensor guarantee is exactly what keeps every read inside.
-/

namespace AxisGraph

/-- What comes of reading lists at unchecked places: a value, the refusal of the input, or a fault,
when a place lies outside a list or a natural number would fall below zero. -/
inductive Access (α : Type) where
  | done (value : α)
  | refused
  | fault
  deriving DecidableEq

namespace Access

variable {α β γ ε : Type}

protected def bind : Access α → (α → Access β) → Access β
  | done value, f => f value
  | refused, _ => refused
  | fault, _ => fault

instance : Monad Access where
  pure := done
  bind := Access.bind

@[simp]
theorem done_bind (value : α) (f : α → Access β) : (done value >>= f) = f value :=
  rfl

@[simp]
theorem pure_eq (value : α) : (pure value : Access α) = done value :=
  rfl

theorem map_id (access : Access α) : id <$> access = access := by
  cases access <;> rfl

theorem bind_bind (access : Access α) (f : α → Access β) (g : β → Access γ) :
    (access >>= f >>= g) = access >>= fun value => f value >>= g := by
  cases access <;> rfl

instance : LawfulMonad Access := LawfulMonad.mk' Access map_id (fun _ _ => rfl) bind_bind

/-- The entry at a place, which must lie inside the list. -/
def read (entries : List α) (place : Nat) : Access α :=
  match entries[place]? with
  | some entry => done entry
  | none => fault

/-- A difference of natural numbers, which must not fall below zero. -/
def sub (a b : Nat) : Access Nat := if b ≤ a then done (a - b) else fault

/-- A number as an extent. The shape of a tensor holds nothing else. -/
def extent (n : Nat) : Access Extent :=
  match (InRange.ofNat? n : Option Extent) with
  | some extent => done extent
  | none => fault

/-- A checked result. It may be an error, and it is never a fault. -/
def ofExcept : Except ε α → Access α
  | .ok value => done value
  | .error _ => refused

@[simp]
theorem ofExcept_ok (value : α) : ofExcept (.ok value : Except ε α) = done value :=
  rfl

@[simp]
theorem ofExcept_error (error : ε) : (ofExcept (.error error) : Access α) = refused :=
  rfl

@[simp]
theorem ofExcept_pure (value : α) : ofExcept (pure value : Except ε α) = done value :=
  rfl

theorem ofExcept_bind (result : Except ε α) (f : α → Except ε β) :
    ofExcept (result >>= f) = ofExcept result >>= fun value => ofExcept (f value) := by
  cases result <;> rfl

theorem ofExcept_mapError (f : ε → γ) (result : Except ε α) :
    ofExcept (result.mapError f) = ofExcept result := by
  cases result <;> rfl

theorem ofExcept_map (f : α → β) (result : Except ε α) :
    ofExcept (result.map f) = ofExcept result >>= fun value => done (f value) := by
  cases result <;> rfl

theorem ofExcept_ne_fault (result : Except ε α) : ofExcept result ≠ fault := by
  cases result <;> simp

theorem read_eq_done {entries : List α} {place : Nat} {entry : α}
    (h : entries[place]? = some entry) : read entries place = done entry := by
  simp [read, h]

@[simp]
theorem extent_val (n : Extent) : extent n.val = done n := by
  simp [extent]

theorem mapM_eq_done (f : α → Access β) (g : α → β) (entries : List α)
    (h : ∀ entry ∈ entries, f entry = done (g entry)) :
    entries.mapM f = done (entries.map g) := by
  induction entries with
  | nil => rfl
  | cons first rest ih =>
    obtain ⟨hfirst, hrest⟩ := List.forall_mem_cons.mp h
    rw [List.mapM_cons, hfirst, ih hrest]
    rfl

theorem sub_eq_done {a b : Nat} (h : b ≤ a) : sub a b = done (a - b) :=
  if_pos h

end Access

/-- A tensor as two plain lists, of which nothing is known. -/
@[ext]
structure PlainTensor where
  shape : List Nat
  axes : List Axis
  deriving DecidableEq

namespace PlainTensor

/-- What the checks of a new tensor are for. -/
structure Sound (plain : PlainTensor) : Prop where
  length_eq : plain.shape.length = plain.axes.length
  extents : ∀ n ∈ plain.shape, 1 ≤ n ∧ n ≤ 0xffffffffffffffff
  nodup : plain.axes.Nodup

/-- A new tensor. It needs an extent for each axis, and no extent may be zero. -/
def ofShape (shape : List Nat) (axes : List Axis) : Access PlainTensor :=
  if shape.length = axes.length ∧ 0 ∉ shape then .done ⟨shape, axes⟩ else .refused

/-- Where an axis stands. -/
def position (axes : List Axis) (axis : Axis) : Access Nat :=
  if axis ∈ axes then .done (axes.idxOf axis) else .refused

def extent (plain : PlainTensor) (axis : Axis) : Access Nat := do
  let place ← position plain.axes axis
  Access.read plain.shape place

/-- Both lists have the same length and hold the same axes. -/
def SameAxes (axes target : List Axis) : Prop :=
  axes.length = target.length ∧ ∀ axis, axis ∈ axes ↔ axis ∈ target

instance (axes target : List Axis) : Decidable (SameAxes axes target) :=
  decidable_of_iff
    (axes.length = target.length ∧ ∀ axis ∈ Axis.all, axis ∈ axes ↔ axis ∈ target)
    (and_congr_right fun _ => forall_congr' fun axis => by simp [Axis.mem_all])

/-- For each axis of the target, where it stands among these axes. -/
def permutation (axes target : List Axis) : Access (List Nat) :=
  if SameAxes axes target then target.mapM (position axes) else .refused

/-- The extents in the order of other axes. No check is made of what comes out. -/
def changeLayout (plain : PlainTensor) (target : List Axis) : Access PlainTensor := do
  let places ← permutation plain.axes target
  let shape ← places.mapM (Access.read plain.shape)
  return ⟨shape, target⟩

end PlainTensor

namespace Tensor

/-- The lists that make up a tensor. -/
def plain (tensor : Tensor) : PlainTensor := ⟨tensor.shape.map InRange.val, tensor.layout.axes⟩

theorem sound_plain (tensor : Tensor) : tensor.plain.Sound where
  length_eq := (List.length_map _).trans tensor.length_shape
  extents n hn := by
    obtain ⟨extent, -, rfl⟩ := List.mem_map.mp hn
    exact ⟨extent.lo_le, extent.le_hi⟩
  nodup := tensor.nodup

end Tensor

namespace PlainTensor

theorem exists_extents (shape : List Nat)
    (h : ∀ n ∈ shape, 1 ≤ n ∧ n ≤ 0xffffffffffffffff) :
    ∃ extents : List Extent, extents.map InRange.val = shape := by
  induction shape with
  | nil => exact ⟨[], rfl⟩
  | cons n rest ih =>
    obtain ⟨hn, hrest⟩ := List.forall_mem_cons.mp h
    obtain ⟨extents, hextents⟩ := ih hrest
    exact ⟨⟨n, hn.1, hn.2⟩ :: extents, by rw [List.map_cons, hextents]⟩

/-- A new tensor is checked in full. -/
theorem sound_ofShape (shape : List Nat) (axes : List Axis) (plain : PlainTensor)
    (hwords : ∀ n ∈ shape, n ≤ 0xffffffffffffffff) (hnodup : axes.Nodup)
    (h : ofShape shape axes = .done plain) : plain.Sound := by
  unfold ofShape at h
  split at h
  · rename_i hchecks
    cases h
    refine ⟨hchecks.1, fun n hn => ⟨?_, hwords n hn⟩, hnodup⟩
    exact Nat.one_le_iff_ne_zero.mpr fun hzero => hchecks.2 (hzero ▸ hn)
  · cases h

/-- The sound lists are those of the tensors. -/
theorem sound_iff_exists_tensor (plain : PlainTensor) :
    plain.Sound ↔ ∃ tensor : Tensor, tensor.plain = plain := by
  constructor
  · intro h
    obtain ⟨shape, axes⟩ := plain
    obtain ⟨extents, hextents⟩ := exists_extents shape h.extents
    have hlength : extents.length = axes.length := by
      rw [← h.length_eq, ← hextents, List.length_map]
    have haxes : (axes.zip extents).map Prod.fst = axes := List.map_fst_zip hlength.ge
    have hshape : (axes.zip extents).map Prod.snd = extents := List.map_snd_zip hlength.le
    refine ⟨⟨axes.zip extents, haxes.symm ▸ h.nodup⟩, PlainTensor.ext ?_ haxes⟩
    simp only [Tensor.plain, Tensor.shape, hshape, hextents]
  · rintro ⟨tensor, rfl⟩
    exact tensor.sound_plain

end PlainTensor

namespace Tensor

/-- The extent of an axis is found in the shape, where the axis stands in the layout. -/
theorem extent_plain (tensor : Tensor) (axis : Axis) :
    tensor.plain.extent axis = Access.ofExcept ((tensor.extent axis).map InRange.val) := by
  unfold PlainTensor.extent PlainTensor.position Tensor.extent
  cases hextent : tensor.extent? axis with
  | none =>
    have hnot : axis ∉ tensor.plain.axes := (tensor.extent?_eq_none_iff axis).mp hextent
    rw [if_neg hnot]
    rfl
  | some extent =>
    have hmem : axis ∈ tensor.plain.axes := (tensor.exists_extent_iff axis).mp ⟨extent, hextent⟩
    rw [if_pos hmem, Access.done_bind]
    refine Access.read_eq_done ?_
    have hget := getElem?_of_lookup tensor.dims axis extent hextent
    simp only [plain, shape, layout, List.getElem?_map] at hget ⊢
    rw [hget]
    rfl

/-- Without its extents, a layout leads out of the shape. -/
example : (PlainTensor.mk [] [.batch]).extent .batch = .fault := rfl

theorem isPermutation_iff_sameAxes (source target : Layout) :
    source.IsPermutation target ↔ PlainTensor.SameAxes source.axes target.axes := by
  constructor
  · intro h
    exact ⟨h.length_eq, fun _ => h.mem_iff⟩
  · intro h
    exact Layout.isPermutation_iff.mpr h.2

theorem mapM_position (axes target : List Axis) (h : ∀ axis ∈ target, axis ∈ axes) :
    target.mapM (PlainTensor.position axes) = .done (target.map axes.idxOf) :=
  Access.mapM_eq_done _ _ target fun axis hmem => if_pos (h axis hmem)

theorem mapM_read_shape (tensor : Tensor) (axes : List Axis)
    (h : ∀ axis ∈ axes, axis ∈ tensor.layout) :
    (axes.map tensor.layout.axes.idxOf).mapM (Access.read tensor.plain.shape) =
      .done ((tensor.dimsAlong axes).map fun dim => dim.2.val) := by
  induction axes with
  | nil => rfl
  | cons first rest ih =>
    obtain ⟨hfirst, hrest⟩ := List.forall_mem_cons.mp h
    obtain ⟨extent, hextent⟩ := (tensor.exists_extent_iff first).mpr hfirst
    have hread := tensor.extent_plain first
    unfold PlainTensor.extent PlainTensor.position Tensor.extent at hread
    rw [hextent, if_pos (show first ∈ tensor.plain.axes from hfirst)] at hread
    have hplace : Access.read tensor.plain.shape (tensor.layout.axes.idxOf first) =
        .done extent.val := hread
    have htail := ih hrest
    simp only [dimsAlong, List.filterMap_cons, hextent, Option.map_some] at htail ⊢
    rw [List.map_cons, List.mapM_cons, hplace, htail]
    rfl

/-- A change of layout reads the shape inside its bounds only, and what it builds without a check is
a tensor. -/
theorem changeLayout_plain (tensor : Tensor) (target : Layout) :
    tensor.plain.changeLayout target.axes =
      Access.ofExcept ((tensor.changeLayout target).map Tensor.plain) := by
  unfold PlainTensor.changeLayout PlainTensor.permutation Tensor.changeLayout
  by_cases hperm : tensor.layout.IsPermutation target
  · have hmem : ∀ axis ∈ target.axes, axis ∈ tensor.layout := fun axis haxis =>
      (Layout.isPermutation_iff.mp hperm axis).mpr haxis
    have hpositions : target.axes.mapM (PlainTensor.position tensor.plain.axes) =
        .done (target.axes.map tensor.layout.axes.idxOf) := mapM_position _ _ hmem
    have haxes : (tensor.arrange target).layout.axes = target.axes :=
      map_fst_dimsAlong tensor target.axes hmem
    have hsame : PlainTensor.SameAxes tensor.plain.axes target.axes :=
      (isPermutation_iff_sameAxes _ _).mp hperm
    rw [if_pos hsame, if_pos hperm, hpositions, Access.done_bind,
      tensor.mapM_read_shape target.axes hmem, Access.done_bind]
    refine congrArg Access.done (PlainTensor.ext ?_ haxes.symm)
    simp [plain, shape, arrange]
  · have hnot : ¬ PlainTensor.SameAxes tensor.plain.axes target.axes := fun h =>
      hperm ((isPermutation_iff_sameAxes _ _).mpr h)
    rw [if_neg hnot, if_neg hperm]
    rfl

end Tensor

namespace Layout

/-- The layouts with a name. -/
def named : List Layout := [nhwc, nchw, chwn, hwcn, hwnc, cnhw, nc, cn, ntc]

/-- Lists of axes that the callers can get as layouts: the named ones, those that pass the check of
a new layout, which counts the distinct axes, and these in sorted order. -/
inductive Offered : List Axis → Prop
  | named (layout : Layout) (h : layout ∈ named) : Offered layout.axes
  | checked (axes : List Axis) (h : axes.dedup.length = axes.length) : Offered axes
  | sorted (axes : List Axis) (h : Offered axes) :
      Offered (axes.mergeSort fun a b => decide (a.place ≤ b.place))

theorem Offered.nodup (axes : List Axis) (h : Offered axes) : axes.Nodup := by
  induction h with
  | named layout => exact layout.nodup
  | checked axes hlength =>
    rw [← (List.dedup_sublist axes).eq_of_length hlength]
    exact List.nodup_dedup axes
  | sorted axes _ ih => exact (List.mergeSort_perm axes _).nodup_iff.mpr ih

end Layout

end AxisGraph
