import AxisGraph.Axis
import AxisGraph.InRange

/-!
Pairs of a height and a width. A window argument is given once for both axes or once for each, as a
signed 32-bit or an unsigned 64-bit number; all four forms mean a pair of integers.
-/

namespace AxisGraph

/-- One value for each spatial axis. -/
structure Spatial (α : Type) where
  height : α
  width : α
  deriving DecidableEq

namespace Spatial

variable {α β : Type}

def both (value : α) : Spatial α := ⟨value, value⟩

def along (pair : Spatial α) : SpatialAxis → α
  | .height => pair.height
  | .width => pair.width

theorem ext_along {p q : Spatial α} (h : ∀ axis, p.along axis = q.along axis) : p = q := by
  cases p
  cases q
  simpa [along] using And.intro (h .height) (h .width)

def map (f : α → β) (pair : Spatial α) : Spatial β := ⟨f pair.height, f pair.width⟩

@[simp]
theorem along_map (f : α → β) (pair : Spatial α) (axis : SpatialAxis) :
    (pair.map f).along axis = f (pair.along axis) := by
  cases axis <;> rfl

/-- Both components, if both are present. -/
def all? (pair : Spatial (Option α)) : Option (Spatial α) :=
  match pair.height, pair.width with
  | some h, some w => some ⟨h, w⟩
  | _, _ => none

theorem all?_eq_some_iff {pair : Spatial (Option α)} {values : Spatial α} :
    pair.all? = some values ↔ ∀ axis, pair.along axis = some (values.along axis) := by
  obtain ⟨h, w⟩ := pair
  obtain ⟨a, b⟩ := values
  constructor
  · intro e axis
    cases h <;> cases w <;> simp_all [all?]
    cases axis <;> simp_all [along]
  · intro e
    have eh := e .height
    have ew := e .width
    simp only [along] at eh ew
    simp [all?, eh, ew]

instance [ToString α] : ToString (Spatial α) :=
  ⟨fun pair => "(" ++ toString pair.height ++ ", " ++ toString pair.width ++ ")"⟩

def ofInt32 (value : Int32) : Spatial Int := both value.toInt

def ofInt32s (height width : Int32) : Spatial Int := ⟨height.toInt, width.toInt⟩

def ofWord (value : Word) : Spatial Int := both value.val

def ofWords (height width : Word) : Spatial Int := ⟨height.val, width.val⟩

end Spatial

end AxisGraph
