import AxisGraph.Graph.Text
import AxisGraph.Proofs.Text.Tensor

/-!
Transcripts: what the text of a graph shows, as data. Names and slots are free texts, so they are
kept apart from the rest only as long as they are plain words. Then a line determines what is
written on it, although one separator serves within shapes, between bindings and between marks.
-/

namespace AxisGraph

open Text

/-- A variable as it is shown: its index in the graph with its tensor. -/
structure Shown where
  index : Nat
  tensor : Tensor
  deriving DecidableEq

/-- An operator as it is shown: its index in the graph, and the axes of its attributes. -/
structure Entry where
  index : Nat
  name : String
  inputs : List (String × Shown)
  outputs : List (String × Shown)
  axes : List Axis
  deriving DecidableEq

structure Transcript where
  inputs : List Shown
  entries : List Entry
  outputs : List Shown
  deriving DecidableEq

def Shown.text (shown : Shown) : String :=
  "v" ++ toString shown.index ++ toString shown.tensor

def bindingText (binding : String × Shown) : String :=
  binding.1 ++ "=" ++ binding.2.text

def markText (axis : Axis) : String := "Tensorwise(" ++ toString axis ++ ")"

def marksText : List Axis → String
  | [] => ""
  | axes => " \x7b" ++ commaSeparated (axes.map markText) ++ "\x7d"

namespace Entry

def line (entry : Entry) : String :=
  Graph.padRight 6 ("op" ++ toString entry.index) ++ " " ++ entry.name ++ "(" ++
    commaSeparated (entry.inputs.map bindingText) ++ ") -> (" ++
    commaSeparated (entry.outputs.map bindingText) ++ ")" ++ marksText entry.axes

/-- The free texts on the line. -/
def words (entry : Entry) : List String :=
  entry.name :: (entry.inputs ++ entry.outputs).map Prod.fst

theorem forall_words (p : String → Prop) (entry : Entry) : (∀ word ∈ entry.words, p word) ↔
    p entry.name ∧ (∀ binding ∈ entry.inputs, p binding.1) ∧
      ∀ binding ∈ entry.outputs, p binding.1 := by
  rw [words, List.forall_mem_cons, List.map_append, List.forall_mem_append, List.forall_mem_map,
    List.forall_mem_map]

end Entry

namespace Transcript

def lines (transcript : Transcript) : List String :=
  ("inputs: " ++ commaSeparated (transcript.inputs.map Shown.text)) ::
    (transcript.entries.map Entry.line ++
      ["outputs: " ++ commaSeparated (transcript.outputs.map Shown.text)])

def words (transcript : Transcript) : List String := transcript.entries.flatMap Entry.words

end Transcript

namespace Text

/-- The characters of plain words: ASCII letters, digits and the underscore. -/
def IsWordChar (c : Char) : Prop := c.isAlphanum = true ∨ c = '_'

instance : DecidablePred IsWordChar := fun _ => inferInstanceAs (Decidable (_ ∨ _))

def IsPlain (word : String) : Prop := ∀ c ∈ word.toList, IsWordChar c

instance : DecidablePred IsPlain := fun word =>
  inferInstanceAs (Decidable (∀ c ∈ word.toList, IsWordChar c))

theorem IsPlain.unbroken {word : String} (h : IsPlain word) : Unbroken word :=
  fun hmem => absurd (h _ hmem) (by decide)

theorem readsOff_shown : ReadsOff (fun _ => True) Shown.text IsLabel := by
  intro a b _ _ s t hs ht h
  have hopen : ∀ (tensor : Tensor) (rest : List Char),
      Breaks IsDigit ((toString tensor).toList ++ rest) := by
    intro tensor rest
    change Breaks IsDigit (("[" ++ commaSeparated (tensor.shape.map toString) ++ "]" ++ " " ++
      toString tensor.layout).toList ++ rest)
    simp [IsDigit]
  simp only [Shown.text, String.toList_append, List.append_assoc, List.append_cancel_left_eq] at h
  obtain ⟨hindex, h⟩ :=
    readsOff_number a.index b.index trivial trivial _ _ (hopen _ _) (hopen _ _) h
  obtain ⟨htensor, hrest⟩ := readsOff_tensor a.tensor b.tensor trivial trivial s t hs ht h
  cases a
  cases b
  simp only [Shown.mk.injEq]
  exact ⟨⟨hindex, htensor⟩, hrest⟩

theorem readsOff_variables : ReadsOff (fun shown : List Shown => ∀ one ∈ shown, True)
    (fun shown => commaSeparated (shown.map Shown.text)) (InSequence IsLabel (· = 'v')) :=
  readsOff_shown.commaSeparated (by decide)
    fun shown _ => ⟨'v', by simp [Shown.text], rfl⟩

theorem readsOff_binding : ReadsOff (fun binding => IsPlain binding.1) bindingText IsLabel := by
  intro a b ha hb s t hs ht h
  simp only [bindingText, String.toList_append, List.append_assoc] at h
  obtain ⟨hslot, h⟩ := (readsOff_word IsWordChar).upTo ha hb ⟨'=', by simp, by decide⟩ h
  obtain ⟨hshown, hrest⟩ := readsOff_shown a.2 b.2 trivial trivial s t hs ht h
  exact ⟨Prod.ext hslot hshown, hrest⟩

/-- The characters that a binding can begin with. The equals sign follows an empty slot. -/
def BeginsBinding (c : Char) : Prop := IsWordChar c ∨ c = '='

instance : DecidablePred BeginsBinding := fun _ => inferInstanceAs (Decidable (_ ∨ _))

theorem readsOff_bindings :
    ReadsOff (fun bindings : List (String × Shown) => ∀ binding ∈ bindings, IsPlain binding.1)
      (fun bindings => commaSeparated (bindings.map bindingText))
      (InSequence IsLabel BeginsBinding) := by
  refine readsOff_binding.commaSeparated (by decide) ?_
  intro binding hplain
  cases hslot : binding.1.toList with
  | nil => exact ⟨'=', by simp [bindingText, hslot], .inr rfl⟩
  | cons c cs =>
    exact ⟨c, by simp [bindingText, hslot], .inl (hplain c (hslot ▸ List.mem_cons_self))⟩

theorem readsOff_mark : ReadsOff (fun _ => True) markText (fun _ => False) := by
  intro a b _ _ s t _ _ h
  have hlabel : ∀ axis : Axis, (toString axis).toList = [axis.label] :=
    fun axis => String.toList_singleton axis.label
  simp only [markText, String.toList_append, hlabel, List.append_assoc,
    List.append_cancel_left_eq, List.cons_append, List.nil_append, List.cons.injEq] at h
  exact ⟨Axis.label_injective h.1, h.2⟩

theorem readsOff_marks : ReadsOff (fun axes : List Axis => ∀ axis ∈ axes, True)
    (fun axes => commaSeparated (axes.map markText)) (InSequence (fun _ => False) (· = 'T')) :=
  readsOff_mark.commaSeparated id fun axis _ => ⟨'T', by simp [markText], rfl⟩

theorem marksText_injective (axes others : List Axis) (h : marksText axes = marksText others) :
    axes = others := by
  replace h := congrArg String.toList h
  have hclose : Breaks (InSequence (fun _ => False) (· = 'T')) "\x7d".toList := by
    simp [InSequence]
  cases axes with
  | nil =>
    cases others with
    | nil => rfl
    | cons other others => simp [marksText] at h
  | cons axis axes =>
    cases others with
    | nil => simp [marksText] at h
    | cons other others =>
      simp only [marksText, String.toList_append, List.append_assoc,
        List.append_cancel_left_eq] at h
      exact (readsOff_marks (axis :: axes) (other :: others) (fun _ _ => trivial)
        (fun _ _ => trivial) _ _ hclose hclose h).1

end Text

/-- The padding of the index ends the number, and the index tells how much padding there is. -/
theorem Entry.line_injective (a b : Entry) (ha : ∀ word ∈ a.words, IsPlain word)
    (hb : ∀ word ∈ b.words, IsPlain word) (h : a.line = b.line) : a = b := by
  have hpadding : ∀ (n : Nat) (rest : List Char),
      Breaks IsDigit (List.replicate n ' ' ++ (" ".toList ++ rest)) := by
    intro n rest
    cases n <;> simp [List.replicate_succ, IsDigit]
  obtain ⟨haname, hainputs, haoutputs⟩ := (Entry.forall_words IsPlain a).mp ha
  obtain ⟨hbname, hbinputs, hboutputs⟩ := (Entry.forall_words IsPlain b).mp hb
  replace h := congrArg String.toList h
  simp only [Entry.line, Graph.padRight, String.toList_append, String.toList_ofList,
    List.append_assoc, List.append_cancel_left_eq] at h
  obtain ⟨hindex, h⟩ := readsOff_number a.index b.index trivial trivial _ _ (hpadding _ _)
    (hpadding _ _) h
  rw [hindex, List.append_cancel_left_eq, List.append_cancel_left_eq] at h
  obtain ⟨hname, h⟩ :=
    (readsOff_word IsWordChar).upTo haname hbname ⟨'(', by simp, by decide⟩ h
  obtain ⟨hinputs, h⟩ := readsOff_bindings.upTo hainputs hbinputs ⟨')', by simp, by decide⟩ h
  obtain ⟨houtputs, h⟩ := readsOff_bindings.upTo haoutputs hboutputs ⟨')', by simp, by decide⟩ h
  have haxes := marksText_injective a.axes b.axes (String.toList_inj.mp h)
  cases a
  cases b
  simp only [Entry.mk.injEq]
  exact ⟨hindex, hname, hinputs, houtputs, haxes⟩

theorem unbroken_shown (shown : Shown) : Unbroken shown.text := by
  simp only [Shown.text, unbroken_append]
  exact ⟨⟨by simp [Unbroken], unbroken_number shown.index⟩, unbroken_tensor shown.tensor⟩

theorem unbroken_variables (shown : List Shown) :
    Unbroken (commaSeparated (shown.map Shown.text)) :=
  unbroken_commaSeparated _ fun one _ => unbroken_shown one

theorem unbroken_bindings (bindings : List (String × Shown))
    (h : ∀ binding ∈ bindings, Unbroken binding.1) :
    Unbroken (commaSeparated (bindings.map bindingText)) := by
  refine unbroken_commaSeparated _ ?_
  intro binding hmem
  simp only [bindingText, unbroken_append]
  exact ⟨⟨h binding hmem, by simp [Unbroken]⟩, unbroken_shown binding.2⟩

theorem unbroken_marksText (axes : List Axis) : Unbroken (marksText axes) := by
  have hmark : ∀ axis, Unbroken (markText axis) := by
    intro axis
    cases axis <;> simp [Unbroken, markText] <;> decide
  cases axes with
  | nil => simp [Unbroken, marksText]
  | cons axis axes =>
    simp only [marksText, unbroken_append]
    exact ⟨⟨by simp [Unbroken], unbroken_commaSeparated _ fun mark _ => hmark mark⟩,
      by simp [Unbroken]⟩

theorem unbroken_padRight (width : Nat) (text : String) (h : Unbroken text) :
    Unbroken (Graph.padRight width text) := by
  unfold Graph.padRight
  rw [unbroken_append]
  refine ⟨h, ?_⟩
  simp [Unbroken]

theorem Entry.unbroken_line (entry : Entry) (h : ∀ word ∈ entry.words, Unbroken word) :
    Unbroken entry.line := by
  obtain ⟨hname, hinputs, houtputs⟩ := (Entry.forall_words Unbroken entry).mp h
  have hindex : Unbroken (Graph.padRight 6 ("op" ++ toString entry.index)) := by
    refine unbroken_padRight 6 _ ?_
    rw [unbroken_append]
    exact ⟨by simp [Unbroken], unbroken_number entry.index⟩
  have hpunctuation : Unbroken " " ∧ Unbroken "(" ∧ Unbroken ") -> (" ∧ Unbroken ")" := by
    simp [Unbroken]
  simp only [Entry.line, unbroken_append, hindex, hname, hpunctuation,
    unbroken_bindings _ hinputs, unbroken_bindings _ houtputs, unbroken_marksText, and_self]

namespace Transcript

theorem unbroken_lines (transcript : Transcript) (h : ∀ word ∈ transcript.words, Unbroken word) :
    ∀ line ∈ transcript.lines, Unbroken line := by
  intro line hline
  simp only [lines, List.mem_cons, List.mem_append, List.not_mem_nil, or_false,
    List.mem_map] at hline
  rcases hline with rfl | ⟨entry, hentry, rfl⟩ | rfl
  · rw [unbroken_append]
    exact ⟨by simp [Unbroken], unbroken_variables transcript.inputs⟩
  · refine entry.unbroken_line ?_
    intro word hword
    exact h word (List.mem_flatMap.mpr ⟨entry, hentry, hword⟩)
  · rw [unbroken_append]
    exact ⟨by simp [Unbroken], unbroken_variables transcript.outputs⟩

theorem variables_injective (shown others : List Shown)
    (h : commaSeparated (shown.map Shown.text) = commaSeparated (others.map Shown.text)) :
    shown = others :=
  readsOff_variables.injective (fun _ _ => trivial) (fun _ _ => trivial) h

theorem entries_injective (entries others : List Entry)
    (h : ∀ entry ∈ entries, ∀ word ∈ entry.words, IsPlain word)
    (hothers : ∀ entry ∈ others, ∀ word ∈ entry.words, IsPlain word)
    (hlines : entries.map Entry.line = others.map Entry.line) : entries = others := by
  induction entries generalizing others with
  | nil => exact (List.map_eq_nil_iff.mp hlines.symm).symm
  | cons entry entries ih =>
    cases others with
    | nil => cases hlines
    | cons other others =>
      obtain ⟨hline, hrest⟩ := List.cons.inj hlines
      obtain ⟨hentry, hentries⟩ := List.forall_mem_cons.mp h
      obtain ⟨hother, hothers'⟩ := List.forall_mem_cons.mp hothers
      rw [Entry.line_injective entry other hentry hother hline,
        ih others hentries hothers' hrest]

theorem lines_injective (transcript other : Transcript)
    (h : ∀ word ∈ transcript.words, IsPlain word) (hother : ∀ word ∈ other.words, IsPlain word)
    (hlines : transcript.lines = other.lines) : transcript = other := by
  obtain ⟨hfirst, hrest⟩ := List.cons.inj hlines
  obtain ⟨hentries, hlast⟩ := List.append_inj' hrest rfl
  have hinputs := variables_injective _ _ (String.append_right_inj _ |>.mp hfirst)
  have houtputs := variables_injective _ _
    (String.append_right_inj _ |>.mp (List.singleton_inj.mp hlast))
  have hsame : transcript.entries = other.entries :=
    entries_injective _ _ (fun entry hentry word hword =>
      h word (List.mem_flatMap.mpr ⟨entry, hentry, hword⟩)) (fun entry hentry word hword =>
      hother word (List.mem_flatMap.mpr ⟨entry, hentry, hword⟩)) hentries
  cases transcript
  cases other
  simp only [Transcript.mk.injEq]
  exact ⟨hinputs, hsame, houtputs⟩

end Transcript

end AxisGraph
