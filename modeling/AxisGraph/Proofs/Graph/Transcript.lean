import AxisGraph.Proofs.Graph.Links
import AxisGraph.Proofs.Operator.Inference
import AxisGraph.Proofs.Text.Transcript

/-!
The text of a reachable graph. Every handle that such a graph stores names one of its variables, so
the text leaves nothing out: it consists of the lines of the graph's transcript. If all names and
slots are plain words, the text determines the transcript.
-/

namespace AxisGraph

open Text

theorem exists_mapM {α β : Type} (f : α → Except GraphError β) (items : List α)
    (h : ∀ item ∈ items, ∃ result, f item = .ok result) :
    ∃ results, items.mapM f = .ok results := by
  induction items with
  | nil => exact ⟨[], rfl⟩
  | cons item items ih =>
    obtain ⟨hitem, hitems⟩ := List.forall_mem_cons.mp h
    obtain ⟨result, hresult⟩ := hitem
    obtain ⟨results, hresults⟩ := ih hitems
    exact ⟨result :: results, by rw [List.mapM_cons, hresult, hresults]; rfl⟩

/-- What can be told from each result can be told from the list of all results. -/
theorem map_of_mapM {α β γ : Type} {f : α → Except GraphError β} {items : List α}
    {results : List β} (h : items.mapM f = .ok results) (g : α → γ) (k : β → γ)
    (hg : ∀ item ∈ items, ∀ result, f item = .ok result → g item = k result) :
    items.map g = results.map k := by
  induction items generalizing results with
  | nil =>
    cases h
    rfl
  | cons item items ih =>
    obtain ⟨hitem, hitems⟩ := List.forall_mem_cons.mp hg
    rw [List.mapM_cons] at h
    obtain ⟨result, hresult, h⟩ := (bind_eq_ok_iff _ _ _).mp h
    obtain ⟨rest, hrest, h⟩ := (bind_eq_ok_iff _ _ _).mp h
    cases h
    rw [List.map_cons, List.map_cons, hitem result hresult, ih hrest hitems]

namespace Graph

/-- The variable of a handle, as it is shown. -/
def shown (graph : Graph) (id : VariableId) : Except GraphError Shown := do
  let found ← graph.variableAt id
  return { index := id.index, tensor := found.tensor }

def shownBinding (graph : Graph) (binding : String × VariableId) :
    Except GraphError (String × Shown) := do
  let one ← graph.shown binding.2
  return (binding.1, one)

def entry (graph : Graph) (node : Node) : Except GraphError Entry := do
  let inputs ← node.inputs.entries.mapM graph.shownBinding
  let outputs ← node.outputs.entries.mapM graph.shownBinding
  return { index := node.id.index, name := node.name, inputs, outputs, axes := node.tensorwiseAxes }

/-- Every stored handle with its variable. It does not exist if a handle names none. -/
def transcript (graph : Graph) : Except GraphError Transcript := do
  let inputs ← graph.inputs.mapM graph.shown
  let entries ← graph.nodes.mapM graph.entry
  let outputs ← graph.outputs.mapM graph.shown
  return { inputs, entries, outputs }

/-- All handles of variables that are stored in the graph. -/
def storedHandles (graph : Graph) : List VariableId :=
  graph.inputs ++ graph.outputs ++
    graph.nodes.flatMap fun node => node.inputs.values ++ node.outputs.values

/-- The names of the operators and the slots that are bound or published. -/
def words (graph : Graph) : List String :=
  graph.nodes.flatMap fun node =>
    node.name :: (node.inputs.entries ++ node.outputs.entries).map Prod.fst

theorem shown_eq_ok_iff (graph : Graph) (id : VariableId) (one : Shown) :
    graph.shown id = .ok one ↔
      ∃ found, graph.variableAt id = .ok found ∧ one = ⟨id.index, found.tensor⟩ := by
  unfold shown
  simp only [bind_eq_ok_iff]
  constructor
  · rintro ⟨found, hfound, ⟨⟩⟩
    exact ⟨found, hfound, rfl⟩
  · rintro ⟨found, hfound, rfl⟩
    exact ⟨found, hfound, rfl⟩

theorem shownBinding_eq_ok_iff (graph : Graph) (binding : String × VariableId)
    (result : String × Shown) : graph.shownBinding binding = .ok result ↔
      graph.shown binding.2 = .ok result.2 ∧ result.1 = binding.1 := by
  unfold shownBinding
  simp only [bind_eq_ok_iff]
  constructor
  · rintro ⟨one, hone, ⟨⟩⟩
    exact ⟨hone, rfl⟩
  · obtain ⟨slot, one⟩ := result
    rintro ⟨hone, rfl⟩
    exact ⟨one, hone, rfl⟩

theorem entry_eq_ok_iff (graph : Graph) (node : Node) (entry : Entry) :
    graph.entry node = .ok entry ↔
      node.inputs.entries.mapM graph.shownBinding = .ok entry.inputs ∧
        node.outputs.entries.mapM graph.shownBinding = .ok entry.outputs ∧
        entry.index = node.id.index ∧ entry.name = node.name ∧
        entry.axes = node.tensorwiseAxes := by
  unfold Graph.entry
  simp only [bind_eq_ok_iff]
  constructor
  · rintro ⟨inputs, hinputs, outputs, houtputs, ⟨⟩⟩
    exact ⟨hinputs, houtputs, rfl, rfl, rfl⟩
  · obtain ⟨index, name, inputs, outputs, axes⟩ := entry
    rintro ⟨hinputs, houtputs, rfl, rfl, rfl⟩
    exact ⟨inputs, hinputs, outputs, houtputs, rfl⟩

theorem transcript_eq_ok_iff (graph : Graph) (transcript : Transcript) :
    graph.transcript = .ok transcript ↔
      graph.inputs.mapM graph.shown = .ok transcript.inputs ∧
        graph.nodes.mapM graph.entry = .ok transcript.entries ∧
        graph.outputs.mapM graph.shown = .ok transcript.outputs := by
  unfold Graph.transcript
  simp only [bind_eq_ok_iff]
  constructor
  · rintro ⟨inputs, hinputs, entries, hentries, outputs, houtputs, ⟨⟩⟩
    exact ⟨hinputs, hentries, houtputs⟩
  · obtain ⟨inputs, entries, outputs⟩ := transcript
    rintro ⟨hinputs, hentries, houtputs⟩
    exact ⟨inputs, hinputs, entries, hentries, outputs, houtputs, rfl⟩

section Text

variable {graph : Graph}

theorem variableText_of_variableAt {id : VariableId} {found : Variable}
    (h : graph.variableAt id = .ok found) :
    graph.variableText id = toString id ++ toString found.tensor := by
  unfold variableText
  rw [h]

theorem variableText_of_shown {id : VariableId} {one : Shown} (h : graph.shown id = .ok one) :
    graph.variableText id = one.text := by
  obtain ⟨found, hfound, rfl⟩ := (graph.shown_eq_ok_iff id one).mp h
  exact variableText_of_variableAt hfound

theorem variablesText_of_mapM {ids : List VariableId} {all : List Shown}
    (h : ids.mapM graph.shown = .ok all) (hissued : ∀ id ∈ ids, graph.Issued id) :
    graph.variablesText ids = commaSeparated (all.map Shown.text) := by
  have hall : ids.filter (fun id => (graph.variableAt id).isOk) = ids := by
    rw [List.filter_eq_self]
    intro id hid
    obtain ⟨found, hfound⟩ := hissued id hid
    rw [hfound]
    rfl
  unfold variablesText
  rw [hall, map_of_mapM h _ _ fun id _ one hone => variableText_of_shown hone]

theorem bindingsText_of_mapM {bindings : NameMap VariableId} {shown : List (String × Shown)}
    (h : bindings.entries.mapM graph.shownBinding = .ok shown) :
    graph.bindingsText bindings = commaSeparated (shown.map bindingText) := by
  unfold bindingsText
  rw [map_of_mapM h _ bindingText]
  intro binding _ result hresult
  obtain ⟨hone, hslot⟩ := (graph.shownBinding_eq_ok_iff binding result).mp hresult
  rw [bindingText, hslot, variableText_of_shown hone]

theorem attributesText_eq (marks : List Attribute) :
    attributesText marks = marksText (marks.map Attribute.axis) := by
  have htext : ∀ mark : Attribute, toString mark = markText mark.axis := by
    rintro ⟨operator, axis⟩
    rfl
  have hmap : marks.map toString = (marks.map Attribute.axis).map markText := by
    rw [List.map_map]
    exact List.map_congr_left fun mark _ => htext mark
  cases marks with
  | nil => rfl
  | cons mark marks =>
    simp only [attributesText, hmap]
    rfl

theorem nodeText_of_entry {node : Node} {entry : Entry} (h : graph.entry node = .ok entry) :
    graph.nodeText node = entry.line ++ "\n" := by
  obtain ⟨hinputs, houtputs, hindex, hname, haxes⟩ := (graph.entry_eq_ok_iff node entry).mp h
  unfold nodeText Entry.line
  rw [bindingsText_of_mapM hinputs, bindingsText_of_mapM houtputs, attributesText_eq, hindex, hname,
    haxes]
  rfl

theorem text_of_transcript {transcript : Transcript} (h : graph.transcript = .ok transcript)
    (hinputs : ∀ id ∈ graph.inputs, graph.Issued id)
    (houtputs : ∀ id ∈ graph.outputs, graph.Issued id) :
    graph.text = linesText transcript.lines := by
  obtain ⟨hshown, hentries, hmarked⟩ := (graph.transcript_eq_ok_iff transcript).mp h
  have hnodes : graph.nodes.map graph.nodeText =
      transcript.entries.map fun entry => entry.line ++ "\n" :=
    map_of_mapM hentries _ _ fun node _ entry hentry => nodeText_of_entry hentry
  unfold Graph.text linesText Transcript.lines
  rw [variablesText_of_mapM hshown hinputs, variablesText_of_mapM hmarked houtputs, hnodes]
  simp only [List.map_cons, List.map_append, List.map_nil, List.map_map, Function.comp_def,
    String.join_cons, String.join_append, String.join_nil, String.append_assoc,
    String.append_empty]

theorem words_of_transcript {transcript : Transcript} (h : graph.transcript = .ok transcript) :
    transcript.words = graph.words := by
  obtain ⟨-, hentries, -⟩ := (graph.transcript_eq_ok_iff transcript).mp h
  have hslots : ∀ {bindings : NameMap VariableId} {shown : List (String × Shown)},
      bindings.entries.mapM graph.shownBinding = .ok shown →
      bindings.entries.map Prod.fst = shown.map Prod.fst := by
    intro bindings shown hshown
    refine map_of_mapM hshown _ _ ?_
    intro binding _ result hresult
    exact ((graph.shownBinding_eq_ok_iff binding result).mp hresult).2.symm
  have hwords : graph.nodes.map (fun node =>
      node.name :: (node.inputs.entries ++ node.outputs.entries).map Prod.fst) =
      transcript.entries.map Entry.words := by
    refine map_of_mapM hentries _ _ ?_
    intro node _ entry hentry
    obtain ⟨hinputs, houtputs, -, hname, -⟩ := (graph.entry_eq_ok_iff node entry).mp hentry
    rw [Entry.words, List.map_append, List.map_append, hslots hinputs, hslots houtputs, hname]
  rw [Transcript.words, words, List.flatMap_def, List.flatMap_def, hwords]

/-- The operators are shown in the order of placement. -/
theorem Linked.map_index (h : graph.Linked) {transcript : Transcript}
    (htranscript : graph.transcript = .ok transcript) :
    transcript.entries.map Entry.index = List.range graph.nodes.length := by
  obtain ⟨-, hentries, -⟩ := (graph.transcript_eq_ok_iff transcript).mp htranscript
  have hindices : graph.nodes.map (fun node => node.id.index) =
      transcript.entries.map Entry.index := by
    refine map_of_mapM hentries _ _ ?_
    intro node _ entry hentry
    obtain ⟨-, -, hindex, -⟩ := (graph.entry_eq_ok_iff node entry).mp hentry
    exact hindex.symm
  rw [← hindices]
  refine List.ext_getElem (by simp) ?_
  intro i hi _
  rw [List.length_map] at hi
  rw [List.getElem_map, List.getElem_range, h.node_id i _ (List.getElem?_eq_getElem hi)]

theorem Linked.issued_of_stored (h : graph.Linked) (id : VariableId)
    (hid : id ∈ graph.storedHandles) : graph.Issued id := by
  simp only [storedHandles, List.mem_append, List.mem_flatMap] at hid
  rcases hid with (hinput | houtput) | ⟨node, hnode, hslot⟩
  · exact h.input_issued id hinput
  · exact h.output_issued id houtput
  · exact h.slot_issued node hnode id (List.mem_append.mpr hslot)

theorem exists_shown (id : VariableId) (h : graph.Issued id) :
    ∃ one, graph.shown id = .ok one := by
  obtain ⟨found, hfound⟩ := h
  exact ⟨_, (graph.shown_eq_ok_iff id _).mpr ⟨found, hfound, rfl⟩⟩

theorem exists_shownBindings (bindings : NameMap VariableId)
    (h : ∀ id ∈ bindings.values, graph.Issued id) :
    ∃ shown, bindings.entries.mapM graph.shownBinding = .ok shown := by
  refine exists_mapM _ _ ?_
  intro binding hbinding
  obtain ⟨one, hone⟩ := exists_shown binding.2 (h _ (List.mem_map_of_mem hbinding))
  exact ⟨(binding.1, one), (graph.shownBinding_eq_ok_iff binding _).mpr ⟨hone, rfl⟩⟩

theorem Linked.exists_transcript (h : graph.Linked) :
    ∃ transcript, graph.transcript = .ok transcript := by
  obtain ⟨inputs, hinputs⟩ := exists_mapM graph.shown graph.inputs
    fun id hid => exists_shown id (h.input_issued id hid)
  obtain ⟨outputs, houtputs⟩ := exists_mapM graph.shown graph.outputs
    fun id hid => exists_shown id (h.output_issued id hid)
  have hentries : ∃ entries, graph.nodes.mapM graph.entry = .ok entries := by
    refine exists_mapM _ _ ?_
    intro node hnode
    have hslot := h.slot_issued node hnode
    obtain ⟨bound, hbound⟩ := exists_shownBindings node.inputs
      fun id hid => hslot id (List.mem_append_left _ hid)
    obtain ⟨published, hpublished⟩ := exists_shownBindings node.outputs
      fun id hid => hslot id (List.mem_append_right _ hid)
    exact ⟨⟨node.id.index, node.name, bound, published, node.tensorwiseAxes⟩,
      (graph.entry_eq_ok_iff node _).mpr ⟨hbound, hpublished, rfl, rfl, rfl⟩⟩
  obtain ⟨entries, hentries⟩ := hentries
  exact ⟨⟨inputs, entries, outputs⟩,
    (graph.transcript_eq_ok_iff _).mpr ⟨hinputs, hentries, houtputs⟩⟩

end Text

/-- A reachable graph has a transcript, and its text consists of the lines of the transcript: one
for the inputs, one for each operator in the order of placement, one for the outputs. No stored
handle is dropped or shown without its variable. Among graphs whose names and slots are plain words,
those with the same text are those with the same transcript. -/
theorem text_determines (graph other : Graph) (h : Reachable graph) (hother : Reachable other) :
    ∃ transcript, graph.transcript = .ok transcript ∧
      (∀ id ∈ graph.storedHandles, ∃ found, graph.variableAt id = .ok found ∧
        graph.variableText id = toString id ++ toString found.tensor) ∧
      graph.text = linesText transcript.lines ∧
      transcript.entries.map Entry.index = List.range graph.nodes.length ∧
      ((∀ word ∈ graph.words, Unbroken word) → ∀ line ∈ transcript.lines, Unbroken line) ∧
      ((∀ word ∈ graph.words, IsPlain word) → (∀ word ∈ other.words, IsPlain word) →
        (graph.text = other.text ↔ other.transcript = .ok transcript)) := by
  have hlinked := linked_of_reachable graph h
  have hlinked' := linked_of_reachable other hother
  obtain ⟨transcript, htranscript⟩ := hlinked.exists_transcript
  obtain ⟨transcript', htranscript'⟩ := hlinked'.exists_transcript
  have htext := text_of_transcript htranscript hlinked.input_issued hlinked.output_issued
  have htext' := text_of_transcript htranscript' hlinked'.input_issued hlinked'.output_issued
  refine ⟨transcript, htranscript, ?_, htext, ?_, ?_, ?_⟩
  · intro id hid
    obtain ⟨found, hfound⟩ := hlinked.issued_of_stored id hid
    exact ⟨found, hfound, variableText_of_variableAt hfound⟩
  · exact hlinked.map_index htranscript
  · intro hwords
    refine transcript.unbroken_lines ?_
    rwa [words_of_transcript htranscript]
  · intro hplain hplain'
    rw [← words_of_transcript htranscript] at hplain
    rw [← words_of_transcript htranscript'] at hplain'
    constructor
    · intro heq
      rw [htext, htext'] at heq
      have hlines := linesText_injective _ _
        (transcript.unbroken_lines fun word hword => (hplain word hword).unbroken)
        (transcript'.unbroken_lines fun word hword => (hplain' word hword).unbroken) heq
      rw [htranscript', transcript.lines_injective transcript' hplain hplain' hlines]
    · intro hsame
      rw [htranscript', Except.ok.injEq] at hsame
      rw [htext, htext', hsame]

/-- The input of the two graphs below. -/
def batched : Tensor where
  dims := [(.channel, { val := 31 }), (.batch, { val := 37 })]

/-- A graph of a softmax, applied in one call. -/
def atOnce : Graph :=
  let softmax := (Parameters.logSoftmax ⟨.batch⟩).operator
  (Graph.new ⟨0⟩).performAll [
    .addInput batched,
    .apply (some "softmax_1") softmax [("x", ⟨⟨0⟩, 0⟩)],
    .markOutput ⟨⟨0⟩, 1⟩]

/-- The like graph of another identity, put together step by step after a call that fails. -/
def stepwise : Graph :=
  let softmax := (Parameters.logSoftmax ⟨.batch⟩).operator
  (Graph.new ⟨1⟩).performAll [
    .markOutput ⟨⟨0⟩, 1⟩,
    .addInput batched,
    .addOperator (some "softmax_1") softmax,
    .bindInput ⟨⟨1⟩, 0⟩ "x" ⟨⟨1⟩, 0⟩,
    .execute ⟨⟨1⟩, 0⟩,
    .markOutput ⟨⟨1⟩, 1⟩]

theorem text_determines_stepwise : atOnce.id ≠ stepwise.id ∧ atOnce.text = stepwise.text ∧
    ∃ transcript, atOnce.transcript = .ok transcript ∧ stepwise.transcript = .ok transcript ∧
      transcript.entries.map Entry.words = [["softmax_1", "x", "y"]] ∧
      transcript.outputs.map Shown.index = [1] := by
  have honce : Reachable atOnce := .performAll _ (.new ⟨0⟩) _
  have hstepwise : Reachable stepwise := .performAll _ (.new ⟨1⟩) _
  obtain ⟨transcript, htranscript, -, -, -, -, htexts⟩ :=
    text_determines atOnce stepwise honce hstepwise
  have hsame : stepwise.transcript = .ok transcript := htranscript
  have hwords : atOnce.words = ["softmax_1", "x", "y"] := rfl
  have hwords' : stepwise.words = ["softmax_1", "x", "y"] := rfl
  have hplain : ∀ word ∈ ["softmax_1", "x", "y"], IsPlain word := by
    simp [IsPlain, IsWordChar]
  have htext := (htexts (hwords ▸ hplain) (hwords' ▸ hplain)).mpr hsame
  cases htranscript
  exact ⟨by decide, htext, _, rfl, hsame, rfl, rfl⟩

end Graph

end AxisGraph
