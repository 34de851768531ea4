/-!
Natural numbers that are known to lie in a range. A value carries its bounds, so a number that was
checked once needs no second check.
-/

namespace AxisGraph

/-- A natural number between `lo` and `hi`, both included. -/
@[ext]
structure InRange (lo hi : Nat) where
  val : Nat
  lo_le : lo ≤ val := by omega
  le_hi : val ≤ hi := by omega
  deriving DecidableEq

namespace InRange

variable {lo hi : Nat}

instance : ToString (InRange lo hi) := ⟨fun n => toString n.val⟩

def ofNat? (n : Nat) : Option (InRange lo hi) :=
  if h : lo ≤ n ∧ n ≤ hi then some ⟨n, h.1, h.2⟩ else none

theorem ofNat?_eq_some_iff {n : Nat} {r : InRange lo hi} : ofNat? n = some r ↔ r.val = n := by
  unfold ofNat?
  split
  · rename_i h
    simp only [Option.some.injEq]
    exact ⟨fun e => e ▸ rfl, fun e => InRange.ext e.symm⟩
  · rename_i h
    simp only [reduceCtorEq, false_iff]
    intro e
    exact h ⟨e ▸ r.lo_le, e ▸ r.le_hi⟩

@[simp]
theorem ofNat?_val (r : InRange lo hi) : ofNat? r.val = some r :=
  ofNat?_eq_some_iff.2 rfl

theorem ofNat?_eq_none_iff {n : Nat} :
    (ofNat? n : Option (InRange lo hi)) = none ↔ n < lo ∨ hi < n := by
  unfold ofNat?
  split <;> simp <;> omega

/-- An integer as a number of the range, if it is one. -/
def ofInt? (i : Int) : Option (InRange lo hi) :=
  if 0 ≤ i then ofNat? i.toNat else none

theorem ofInt?_eq_some_iff {i : Int} {r : InRange lo hi} :
    ofInt? i = some r ↔ (r.val : Int) = i := by
  unfold ofInt?
  split
  · rw [ofNat?_eq_some_iff]
    omega
  · simp only [reduceCtorEq, false_iff]
    omega

theorem ofInt?_eq_none_iff {i : Int} :
    (ofInt? i : Option (InRange lo hi)) = none ↔ i < lo ∨ (hi : Int) < i := by
  unfold ofInt?
  split
  · rw [ofNat?_eq_none_iff]
    omega
  · simp only [true_iff]
    omega

end InRange

/-- A number of at most 64 bits. -/
abbrev Word := InRange 0 0xffffffffffffffff

/-- Number of positions of a tensor along an axis. -/
abbrev Extent := InRange 1 0xffffffffffffffff

/-- A kernel size, stride or dilation. -/
abbrev Size := InRange 1 0x7fffffffffffffff

/-- A padding. -/
abbrev Margin := InRange 0 0x7fffffffffffffff

def Size.toExtent (size : Size) : Extent where
  val := size.val
  lo_le := size.lo_le
  le_hi := Nat.le_trans size.le_hi (by decide)

@[simp]
theorem Size.val_toExtent (size : Size) : size.toExtent.val = size.val :=
  rfl

end AxisGraph
