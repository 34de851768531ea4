import AxisGraph.Proofs.Graph.WellFormed

/-!
The tensors that an execution reads. They are the tensors of the variables bound to the declared
slots, so they depend on the bindings of the operator and on the variables only, and they stay the
same when the graph grows.
-/

namespace AxisGraph.Graph

theorem boundTensors_cons_eq_ok_iff (graph : Graph) (node : Node) (slot : String)
    (slots : List String) (found inputs : NameMap Tensor) :
    graph.boundTensors node (slot :: slots) found = .ok inputs ↔
      ∃ v given, node.inputs.find? slot = some v ∧ graph.variableAt v = .ok given ∧
        graph.boundTensors node slots (found.insert slot given.tensor) = .ok inputs := by
  rw [boundTensors]
  cases hslot : node.inputs.find? slot with
  | none => simp
  | some v =>
    cases hv : graph.variableAt v with
    | error error => simp [hv, bind, Except.bind]
    | ok given => simp [hv, bind, Except.bind]

theorem boundTensors_mono (graph later : Graph) (node : Node) (slots : List String)
    (found inputs : NameMap Tensor) (hkeeps : graph.KeepsVariables later)
    (h : graph.boundTensors node slots found = .ok inputs) :
    later.boundTensors node slots found = .ok inputs := by
  induction slots generalizing found with
  | nil => exact h
  | cons slot rest ih =>
    obtain ⟨v, given, hslot, hv, hrest⟩ :=
      (boundTensors_cons_eq_ok_iff graph node slot rest found inputs).mp h
    exact (boundTensors_cons_eq_ok_iff later node slot rest found inputs).mpr
      ⟨v, given, hslot, hkeeps v given hv, ih _ hrest⟩

theorem boundTensors_committed (graph : Graph) (node : Node) (produced : List (String × VariableId))
    (recorded : Context) (slots : List String) (found : NameMap Tensor) :
    graph.boundTensors (node.committed produced recorded) slots found =
      graph.boundTensors node slots found := by
  induction slots generalizing found with
  | nil => rfl
  | cons slot rest ih =>
    simp only [boundTensors, ih]
    rfl

/-- The first open slot is the one that is missed. -/
theorem boundTensors_of_open (graph : Graph) (node : Node)
    (hissued : ∀ slot v, node.inputs.find? slot = some v → graph.Issued v) (slots : List String)
    (found : NameMap Tensor) (slot : String)
    (h : slots.find? (fun slot => (node.inputs.find? slot).isNone) = some slot) :
    graph.boundTensors node slots found = .error (.missingInput node.name slot) := by
  induction slots generalizing found with
  | nil => cases h
  | cons first rest ih =>
    unfold boundTensors
    rw [List.find?_cons] at h
    cases hfirst : node.inputs.find? first with
    | none =>
      rw [hfirst] at h
      cases h
      rfl
    | some v =>
      rw [hfirst] at h
      obtain ⟨given, hgiven⟩ := hissued first v hfirst
      simp only [hgiven]
      exact ih _ h

theorem find?_boundTensors (graph : Graph) (node : Node) (slots : List String)
    (found inputs : NameMap Tensor) (h : graph.boundTensors node slots found = .ok inputs)
    (slot : String) (tensor : Tensor) :
    inputs.find? slot = some tensor ↔
      (slot ∈ slots ∧ ∃ v producer, node.inputs.find? slot = some v ∧
        graph.variableAt v = .ok ⟨tensor, producer⟩) ∨
      slot ∉ slots ∧ found.find? slot = some tensor := by
  induction slots generalizing found with
  | nil =>
    cases h
    simp
  | cons first rest ih =>
    obtain ⟨v, given, hfirst, hv, hrest⟩ :=
      (boundTensors_cons_eq_ok_iff graph node first rest found inputs).mp h
    rw [ih (found.insert first given.tensor) hrest]
    by_cases hmem : slot ∈ rest
    · simp [hmem]
    by_cases heq : slot = first
    · subst slot
      obtain ⟨given, maker⟩ := given
      simp [hmem, hfirst, hv]
    · simp [hmem, heq]

namespace WellFormed

variable {graph : Graph}

/-- The tensors at hand are those of the bound variables. -/
theorem find?_inputs (h : graph.WellFormed) (operator : OperatorId) (node : Node)
    (inputs : NameMap Tensor) (hnode : graph.nodeAt operator = .ok node)
    (hinputs : graph.boundTensors node node.operator.slots ∅ = .ok inputs) (slot : String)
    (tensor : Tensor) :
    inputs.find? slot = some tensor ↔ ∃ v producer, node.inputs.find? slot = some v ∧
      graph.variableAt v = .ok ⟨tensor, producer⟩ := by
  rw [find?_boundTensors graph node _ ∅ inputs hinputs slot tensor]
  constructor
  · intro hfound
    rcases hfound with ⟨-, hbound⟩ | ⟨-, hnone⟩
    · exact hbound
    · cases hnone
  · intro hbound
    obtain ⟨v, producer, hslot, hv⟩ := hbound
    exact Or.inl ⟨((h.node operator node hnode).bound slot v hslot).1, v, producer, hslot, hv⟩

end WellFormed

end AxisGraph.Graph
