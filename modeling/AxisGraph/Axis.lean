/-!
The logical dimensions of a tensor. Their order of declaration is the canonical order: every sorted
arrangement of axes follows it. Height and width are the spatial axes.
-/

namespace AxisGraph

/-- A logical tensor dimension. -/
inductive Axis where
  | batch
  | channel
  | height
  | width
  | time
  deriving DecidableEq

namespace Axis

/-- Every axis, in canonical order. -/
def all : List Axis := [batch, channel, height, width, time]

theorem mem_all (axis : Axis) : axis ∈ all := by
  cases axis <;> decide

theorem nodup_all : all.Nodup := by
  decide

/-- Place of an axis in the canonical order. -/
def place : Axis → Nat
  | batch => 0
  | channel => 1
  | height => 2
  | width => 3
  | time => 4

theorem place_injective {a b : Axis} (h : a.place = b.place) : a = b := by
  cases a <;> cases b <;> simp_all [place]

instance : LT Axis := ⟨fun a b => a.place < b.place⟩

instance (a b : Axis) : Decidable (a < b) :=
  inferInstanceAs (Decidable (a.place < b.place))

theorem lt_iff {a b : Axis} : a < b ↔ a.place < b.place :=
  Iff.rfl

theorem pairwise_all : all.Pairwise (· < ·) := by
  decide

def label : Axis → Char
  | batch => 'N'
  | channel => 'C'
  | height => 'H'
  | width => 'W'
  | time => 'T'

theorem label_injective {a b : Axis} (h : a.label = b.label) : a = b := by
  cases a <;> cases b <;> simp_all [label]

def ofLabel? (label : Char) : Option Axis :=
  all.find? fun axis => axis.label == label

@[simp]
theorem ofLabel?_label (axis : Axis) : ofLabel? axis.label = some axis := by
  cases axis <;> decide

instance : ToString Axis := ⟨fun axis => String.singleton axis.label⟩

def isSpatial : Axis → Bool
  | height | width => true
  | batch | channel | time => false

end Axis

/-- An axis along which a window slides. -/
inductive SpatialAxis where
  | height
  | width
  deriving DecidableEq

namespace SpatialAxis

/-- Both spatial axes, height first. -/
def all : List SpatialAxis := [height, width]

theorem mem_all (axis : SpatialAxis) : axis ∈ all := by
  cases axis <;> decide

theorem forall_iff {p : SpatialAxis → Prop} : (∀ axis, p axis) ↔ p height ∧ p width :=
  ⟨fun h => ⟨h height, h width⟩, fun h axis => by cases axis <;> simp [h]⟩

instance {p : SpatialAxis → Prop} [DecidablePred p] : Decidable (∀ axis, p axis) :=
  decidable_of_iff _ forall_iff.symm

def toAxis : SpatialAxis → Axis
  | height => .height
  | width => .width

theorem isSpatial_iff {axis : Axis} :
    axis.isSpatial = true ↔ ∃ s : SpatialAxis, s.toAxis = axis := by
  constructor
  · intro h
    cases axis with
    | height => exact ⟨.height, rfl⟩
    | width => exact ⟨.width, rfl⟩
    | _ => simp [Axis.isSpatial] at h
  · rintro ⟨s, rfl⟩
    cases s <;> rfl

instance : ToString SpatialAxis := ⟨fun axis => toString axis.toAxis⟩

end SpatialAxis

end AxisGraph
