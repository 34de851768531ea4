import AxisGraph.Proofs.Relabelling
import Mathlib.Algebra.BigOperators.Group.List.Lemmas

/-!
Number of elements of a tensor. Extents are multiplied up in the order of the layout, so two layouts
of one tensor go through different products on the way. No extent is zero, so no product on the way
is larger than the last one: whether the count fits in a word is a matter of the extents alone, and
so is the count.
-/

namespace AxisGraph.Tensor

/-- The exact product, whether or not a word can hold it. -/
def product (extents : List Extent) : Nat := (extents.map InRange.val).prod

@[simp]
theorem product_nil : product [] = 1 :=
  rfl

@[simp]
theorem product_cons (extent : Extent) (extents : List Extent) :
    product (extent :: extents) = extent.val * product extents :=
  List.prod_cons

theorem product_pos (extents : List Extent) : 0 < product extents := by
  induction extents with
  | nil => decide
  | cons extent extents ih =>
    rw [product_cons]
    exact Nat.mul_pos extent.lo_le ih

theorem product_perm {extents others : List Extent} (h : extents.Perm others) :
    product extents = product others :=
  (h.map InRange.val).prod_eq

theorem product_take_le (extents : List Extent) (n : Nat) :
    product (extents.take n) ≤ product extents := by
  have hsublist : ((extents.take n).map InRange.val).Sublist (extents.map InRange.val) :=
    (List.take_sublist n extents).map InRange.val
  exact Nat.le_of_dvd (product_pos extents) hsublist.prod_dvd_prod

/-- The products from the left all fit in a word if the last one does. -/
theorem product_take_le_iff (extents : List Extent) :
    (∀ n, product (extents.take n) ≤ 0xffffffffffffffff) ↔
      product extents ≤ 0xffffffffffffffff := by
  constructor
  · intro h
    simpa using h extents.length
  · intro h n
    exact (product_take_le extents n).trans h

/-- Checked multiplication from the left gives the exact product, and succeeds if a word holds it.
-/
theorem foldlM_mul_eq_some_iff (extents : List Extent) (start count : Word) :
    extents.foldlM (fun product extent => InRange.ofNat? (product.val * extent.val)) start =
      some count ↔ count.val = start.val * product extents := by
  induction extents generalizing start with
  | nil =>
    simp only [List.foldlM_nil, Option.pure_def, Option.some.injEq, product_nil, Nat.mul_one]
    exact eq_comm.trans InRange.ext_iff
  | cons extent extents ih =>
    simp only [List.foldlM_cons, Option.bind_eq_bind, Option.bind_eq_some_iff, ih,
      InRange.ofNat?_eq_some_iff, product_cons, ← Nat.mul_assoc]
    constructor
    · rintro ⟨next, hnext, hcount⟩
      rw [hcount, hnext]
    · intro hcount
      -- The remaining factors are positive, so this product is at most the final one.
      have hle : start.val * extent.val ≤ count.val :=
        hcount ▸ Nat.le_mul_of_pos_right _ (product_pos extents)
      exact ⟨{ val := start.val * extent.val, le_hi := hle.trans count.le_hi }, rfl, hcount⟩

theorem size?_eq_some_iff (tensor : Tensor) (count : Word) :
    tensor.size? = some count ↔ count.val = product tensor.shape := by
  unfold size?
  rw [foldlM_mul_eq_some_iff, Nat.one_mul]

theorem size?_eq_none_iff (tensor : Tensor) :
    tensor.size? = none ↔ 0xffffffffffffffff < product tensor.shape := by
  constructor
  · intro hnone
    by_contra hle
    have hsome := (size?_eq_some_iff tensor
      { val := product tensor.shape, le_hi := Nat.le_of_not_lt hle }).mpr rfl
    rw [hnone] at hsome
    cases hsome
  · intro hlt
    rw [Option.eq_none_iff_forall_ne_some]
    intro count hsome
    have hval := (size?_eq_some_iff tensor count).mp hsome
    have hle := count.le_hi
    omega

theorem dimsAlong_axes (tensor : Tensor) : tensor.dimsAlong tensor.layout.axes = tensor.dims := by
  have hself := tensor.changeLayout_self
  unfold changeLayout at hself
  rw [if_pos (.refl _)] at hself
  exact congrArg dims (Except.ok.inj hself)

theorem perm_shape_of_changeLayout {tensor changed : Tensor} {target : Layout}
    (h : tensor.changeLayout target = .ok changed) : changed.shape.Perm tensor.shape := by
  unfold changeLayout at h
  split at h
  · rename_i hperm
    cases h
    have hdims : (tensor.dimsAlong tensor.layout.axes).Perm (tensor.dimsAlong target.axes) :=
      List.Perm.filterMap _ hperm
    rw [dimsAlong_axes] at hdims
    exact hdims.symm.map Prod.snd
  · cases h

/-- A tensor and its arrangement in any layout of its axes have the same number of elements. Every
product on the way to it fits in a word in the one layout if and only if it does so in the other,
namely if the number itself fits. Then both sizes are that number, and otherwise neither has one. -/
theorem size_layout_independent (tensor : Tensor) (target : Layout)
    (hperm : tensor.layout.IsPermutation target) :
    ∃ changed, tensor.changeLayout target = .ok changed ∧
      product changed.shape = product tensor.shape ∧
      ((∀ n, product (tensor.shape.take n) ≤ 0xffffffffffffffff) ↔
        ∀ n, product (changed.shape.take n) ≤ 0xffffffffffffffff) ∧
      ((∀ n, product (tensor.shape.take n) ≤ 0xffffffffffffffff) ↔
        product tensor.shape ≤ 0xffffffffffffffff) ∧
      (product tensor.shape ≤ 0xffffffffffffffff → ∃ count : Word,
        count.val = product tensor.shape ∧ tensor.size? = some count ∧
          changed.size? = some count) ∧
      (0xffffffffffffffff < product tensor.shape →
        tensor.size? = none ∧ changed.size? = none) := by
  obtain ⟨changed, hchanged⟩ := (exists_changeLayout_iff tensor target).mpr hperm
  have hproduct : product changed.shape = product tensor.shape :=
    product_perm (perm_shape_of_changeLayout hchanged)
  refine ⟨changed, hchanged, hproduct, ?_, product_take_le_iff tensor.shape, ?_, ?_⟩
  · rw [product_take_le_iff, product_take_le_iff, hproduct]
  · intro hle
    exact ⟨{ val := product tensor.shape, le_hi := hle }, rfl,
      (size?_eq_some_iff tensor _).mpr rfl, (size?_eq_some_iff changed _).mpr hproduct.symm⟩
  · intro hlt
    rw [size?_eq_none_iff, size?_eq_none_iff, hproduct]
    exact ⟨hlt, hlt⟩

/-- A tensor with as many elements as a word can count. -/
def full : Tensor where
  dims := [(.batch, { val := 15 }), (.height, { val := 4369 }), (.width, { val := 42009217 }),
    (.channel, { val := 6700417 })]

/-- With the channels first the products on the way are different ones. -/
theorem size_layout_independent_full :
    ∃ changed, full.changeLayout .cnhw = .ok changed ∧
      changed.shape.map InRange.val = [6700417, 15, 4369, 42009217] ∧
      product (full.shape.take 2) = 65535 ∧ product (changed.shape.take 2) = 100506255 ∧
      ∃ count : Word, count.val = 0xffffffffffffffff ∧ full.size? = some count ∧
        changed.size? = some count := by
  have hperm : full.layout.IsPermutation .cnhw := by decide
  obtain ⟨changed, hchanged, -, -, -, hfits, -⟩ := size_layout_independent full .cnhw hperm
  obtain ⟨count, hcount, hfull, hsize⟩ := hfits (by decide)
  cases hchanged
  exact ⟨_, rfl, rfl, rfl, rfl, count, hcount, hfull, hsize⟩

end AxisGraph.Tensor
