import AxisGraph.Proofs.Text.Reading
import AxisGraph.Tensor

/-!
Reading tensors. The brackets show where the shape ends, and the labels of the axes end where the
text goes on with anything but a label. So the text of a tensor determines the tensor, also when it
has no axes and nothing is written for the layout.
-/

namespace AxisGraph

theorem Tensor.eq_of_shape_of_layout {a b : Tensor} (hshape : a.shape = b.shape)
    (hlayout : a.layout = b.layout) : a = b := by
  refine Tensor.ext ?_
  calc
    a.dims = a.layout.axes.zip a.shape := List.zip_of_prod rfl rfl
    _ = b.layout.axes.zip b.shape := by rw [hlayout, hshape]
    _ = b.dims := (List.zip_of_prod rfl rfl).symm

namespace Text

/-- The characters that stand for axes. -/
def IsLabel (c : Char) : Prop := ∃ axis : Axis, axis.label = c

instance : DecidablePred IsLabel := fun c =>
  decidable_of_iff (∃ axis ∈ Axis.all, axis.label = c)
    ⟨fun ⟨axis, _, h⟩ => ⟨axis, h⟩, fun ⟨axis, h⟩ => ⟨axis, axis.mem_all, h⟩⟩

theorem isLabel_of_mem {axes : List Axis} {c : Char}
    (h : c ∈ (String.ofList (axes.map Axis.label)).toList) : IsLabel c := by
  rw [String.toList_ofList, List.mem_map] at h
  obtain ⟨axis, -, hlabel⟩ := h
  exact ⟨axis, hlabel⟩

theorem readsOff_layout : ReadsOff (fun _ => True) (fun layout : Layout => toString layout)
    IsLabel := by
  intro a b _ _ s t hs ht h
  obtain ⟨hword, hrest⟩ := readsOff_word IsLabel (toString a) (toString b)
    (fun _ => isLabel_of_mem) (fun _ => isLabel_of_mem) s t hs ht h
  have haxes : a.axes.map Axis.label = b.axes.map Axis.label := String.ofList_injective hword
  exact ⟨Layout.ext (List.map_injective_iff.mpr (fun _ _ => Axis.label_injective) haxes), hrest⟩

theorem readsOff_extent : ReadsOff (fun _ => True) (fun extent : Extent => toString extent)
    IsDigit := by
  intro a b _ _ s t hs ht h
  obtain ⟨hval, hrest⟩ := readsOff_number a.val b.val trivial trivial s t hs ht h
  exact ⟨InRange.ext hval, hrest⟩

theorem exists_first_digit (n : Nat) : ∃ c, (toString n).toList.head? = some c ∧ IsDigit c := by
  have hne : (toString n).toList ≠ [] := by
    rw [show toString n = Nat.repr n from rfl, Nat.toList_repr]
    exact Nat.toDigits_ne_nil
  obtain ⟨c, cs, hcons⟩ := List.exists_cons_of_ne_nil hne
  exact ⟨c, by rw [hcons, List.head?_cons], isDigit_of_mem_number (hcons ▸ List.mem_cons_self)⟩

theorem readsOff_extents : ReadsOff (fun extents : List Extent => ∀ extent ∈ extents, True)
    (fun extents => commaSeparated (extents.map toString)) (InSequence IsDigit IsDigit) :=
  readsOff_extent.commaSeparated (by decide)
    fun extent _ => exists_first_digit extent.val

/-- A tensor is read off up to a character that is no label. -/
theorem readsOff_tensor : ReadsOff (fun _ => True) (fun tensor : Tensor => toString tensor)
    IsLabel := by
  intro a b _ _ s t hs ht h
  change ("[" ++ commaSeparated (a.shape.map toString) ++ "]" ++ " " ++
      toString a.layout).toList ++ s =
    ("[" ++ commaSeparated (b.shape.map toString) ++ "]" ++ " " ++ toString b.layout).toList ++ t
    at h
  simp only [String.toList_append, List.append_assoc, List.append_cancel_left_eq] at h
  obtain ⟨hshape, h⟩ := readsOff_extents.upTo (fun _ _ => trivial) (fun _ _ => trivial)
    ⟨']', by simp, by decide⟩ h
  rw [List.append_cancel_left_eq] at h
  obtain ⟨hlayout, hrest⟩ := readsOff_layout a.layout b.layout trivial trivial s t hs ht h
  exact ⟨Tensor.eq_of_shape_of_layout hshape hlayout, hrest⟩

/-- The characters that the text of a tensor is made of. -/
def IsTensorChar (c : Char) : Prop := IsDigit c ∨ IsLabel c ∨ c ∈ "[], ".toList

instance : DecidablePred IsTensorChar := fun _ => inferInstanceAs (Decidable (_ ∨ _ ∨ _))

theorem isTensorChar_of_mem {tensor : Tensor} {c : Char} (h : c ∈ (toString tensor).toList) :
    IsTensorChar c := by
  have hmark : ∀ mark : String, mark.toList ⊆ "[], ".toList → c ∈ mark.toList → IsTensorChar c :=
    fun mark hsubset hc => .inr (.inr (hsubset hc))
  change c ∈ ("[" ++ commaSeparated (tensor.shape.map toString) ++ "]" ++ " " ++
    toString tensor.layout).toList at h
  simp only [String.toList_append, List.mem_append] at h
  rcases h with (((hopen | hshape) | hclose) | hblank) | hlayout
  · exact hmark "[" (by simp) hopen
  · rcases mem_commaSeparated hshape with hseparator | ⟨item, hitem, hc⟩
    · exact hmark ", " (by simp) hseparator
    · obtain ⟨extent, -, rfl⟩ := List.mem_map.mp hitem
      exact .inl (isDigit_of_mem_number hc)
  · exact hmark "]" (by simp) hclose
  · exact hmark " " (by simp) hblank
  · exact .inr (.inl (isLabel_of_mem hlayout))

theorem unbroken_tensor (tensor : Tensor) : Unbroken (toString tensor) :=
  fun hmem => absurd (isTensorChar_of_mem hmem) (by decide)

end Text

end AxisGraph
