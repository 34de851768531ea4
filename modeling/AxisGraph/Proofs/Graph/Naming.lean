import AxisGraph.Proofs.Graph.History
import AxisGraph.Proofs.Text.Reading

/-!
Names of operators. An operator that is placed without a name is called by its kind and its index,
with nothing between them. The index of an operator that a failing call withdraws is given out
again, so the names of a graph are settled by what its history has placed for good: each operator
by its place among them. A kind that does not end in a digit shows where the index begins, and so
the generated names of two operators of such kinds differ.
-/

namespace AxisGraph

namespace Text

def EndsInDigit (text : String) : Prop := text.toList.getLast?.any Char.isDigit = true

instance : DecidablePred EndsInDigit := fun text =>
  inferInstanceAs (Decidable (text.toList.getLast?.any Char.isDigit = true))

theorem breaks_reverse (text : String) (h : ¬EndsInDigit text) :
    Breaks IsDigit text.toList.reverse := by
  intro c hc hdigit
  rw [List.head?_reverse, Option.mem_def] at hc
  refine h ?_
  rw [EndsInDigit, hc]
  exact hdigit

/-- Read from its end, a text with a number after it shows where the number begins. -/
theorem append_number_injective (text other : String) (m n : Nat) (htext : ¬EndsInDigit text)
    (hother : ¬EndsInDigit other) (h : text ++ toString m = other ++ toString n) :
    text = other ∧ m = n := by
  have hreverse : (toString m).toList.reverse ++ text.toList.reverse =
      (toString n).toList.reverse ++ other.toList.reverse := by
    rw [← List.reverse_append, ← List.reverse_append, ← String.toList_append,
      ← String.toList_append, h]
  have hdigits : ∀ k : Nat, ∀ c ∈ (toString k).toList.reverse, IsDigit c :=
    fun k c hc => isDigit_of_mem_number (List.mem_reverse.mp hc)
  -- From the end, the digits of the number come first, and the text begins with no digit.
  obtain ⟨hnumber, hword⟩ := split_at_break _ _ _ _ (hdigits m) (hdigits n)
    (breaks_reverse text htext) (breaks_reverse other hother) hreverse
  exact ⟨String.toList_inj.mp (List.reverse_injective hword),
    number_injective (String.toList_inj.mp (List.reverse_injective hnumber))⟩

-- A text that ends in a digit runs into the number.
example : EndsInDigit "Slice1" ∧ "Slice1" ++ toString 0 = "Slice" ++ toString 10 := by decide

end Text

open Text

theorem PoolingKind.not_endsInDigit_name (kind : PoolingKind) : ¬EndsInDigit kind.name := by
  cases kind with
  | max => decide
  | average divideWithoutPadding =>
    change ¬EndsInDigit "AveragePooling2D"
    decide

theorem Parameters.not_endsInDigit_kind (parameters : Parameters) :
    ¬EndsInDigit parameters.operator.kind := by
  have hweighted : ¬EndsInDigit Convolution.kind ∧ ¬EndsInDigit Deconvolution.kind ∧
      ¬EndsInDigit LogSoftmax.kind := by decide
  cases parameters with
  | pooling settings => exact settings.kind.not_endsInDigit_name
  | convolution settings => exact hweighted.1
  | deconvolution settings => exact hweighted.2.1
  | logSoftmax settings => exact hweighted.2.2

namespace Graph

/-- An operator to be placed, with the name that the caller gives it, if any. -/
structure Placement where
  given : Option String
  operator : Operator

/-- An operator with the name by which errors and logs refer to it. -/
structure NamedOperator where
  name : String
  operator : Operator

def Placement.named (placement : Placement) (index : Nat) : NamedOperator where
  name := placement.given.getD (generatedName placement.operator index)
  operator := placement.operator

/-- The operators under the names that they get when they are placed one after the other. -/
def namedInTurn (placements : List Placement) : List NamedOperator :=
  placements.mapIdx fun index placement => placement.named index

/-- The operators of the graph under their names, in the order of placement. -/
def named (graph : Graph) : List NamedOperator :=
  graph.nodes.map fun node => ⟨node.name, node.operator⟩

def Call.placement? : Call → Option Placement
  | .addOperator name operator => some ⟨name, operator⟩
  | .apply name operator _ => some ⟨name, operator⟩
  | .pool pooling _ => some ⟨none, (Parameters.pooling pooling).operator⟩
  | .convolve convolution _ _ => some ⟨none, (Parameters.convolution convolution).operator⟩
  | .deconvolve deconvolution _ _ => some ⟨none, (Parameters.deconvolution deconvolution).operator⟩
  | .logSoftmax softmax _ => some ⟨none, (Parameters.logSoftmax softmax).operator⟩
  | .addVariable _ => none
  | .addInput _ => none
  | .markOutput _ => none
  | .bindInput _ _ _ => none
  | .execute _ => none

/-- What a call has placed for good. A call that fails places nothing. -/
def placedBy (graph : Graph) (call : Call) : Option Placement :=
  match (graph.perform call).answer with
  | .ok _ => call.placement?
  | .error _ => none

/-- What a list of calls has placed for good, in the order of placement. -/
def placements (graph : Graph) : List Call → List Placement
  | [] => []
  | call :: rest => (graph.placedBy call).toList ++ (graph.perform call).graph.placements rest

theorem named_modifyNode (graph : Graph) (id : OperatorId) (f : Node → Node)
    (hname : ∀ node, (f node).name = node.name)
    (hoperator : ∀ node, (f node).operator = node.operator) :
    (graph.modifyNode id f).named = graph.named := by
  refine List.ext_getElem? ?_
  intro i
  simp only [named, modifyNode, List.getElem?_map, List.getElem?_modify]
  cases graph.nodes[i]? with
  | none => rfl
  | some node =>
    simp only [Option.map_eq_map, Option.map_some]
    split
    · rw [hname, hoperator]
    · rfl

theorem untouched_named : Untouched named where
  bound graph operator _ _ :=
    graph.named_modifyNode operator _ (fun _ => rfl) fun _ => rfl
  commit graph operator _ :=
    named_modifyNode { graph with vars := _ } operator _ (fun _ => rfl) fun _ => rfl

theorem named_markOutput (graph : Graph) (id : VariableId) :
    (graph.perform (.markOutput id)).graph.named = graph.named := by
  simp only [perform]
  cases hmark : graph.markOutput id with
  | error error => rfl
  | ok changed =>
    obtain ⟨-, rfl⟩ := (markOutput_eq_ok_iff graph changed id).mp hmark
    simp only [ofChange, Outcome.of]
    split <;> rfl

theorem named_addOperator (graph : Graph) (name : Option String) (operator : Operator) :
    (graph.addOperator name operator).2.named =
      graph.named ++ [Placement.named ⟨name, operator⟩ graph.named.length] := by
  simp [addOperator, named, Placement.named, Node.fresh]

theorem named_apply (graph : Graph) (name : Option String) (operator : Operator)
    (inputs : List (String × VariableId)) (ids : List VariableId)
    (h : (graph.apply name operator inputs).answer = .ok ids) :
    (graph.apply name operator inputs).graph.named =
      graph.named ++ [Placement.named ⟨name, operator⟩ graph.named.length] :=
  (untouched_named.apply graph name operator inputs ids h).trans
    (graph.named_addOperator name operator)

theorem named_applyBuiltin (graph : Graph) (parameters : Parameters)
    (inputs : List (String × VariableId)) (answer : Answer)
    (h : ((parameters.apply graph inputs).map fun id => Answer.vars id.toList).answer =
      .ok answer) :
    (parameters.apply graph inputs).graph.named =
      graph.named ++ [Placement.named ⟨none, parameters.operator⟩ graph.named.length] := by
  obtain ⟨ids, hids, -⟩ := graph.exists_ids_of_applyBuiltin parameters inputs answer h
  exact graph.named_apply none parameters.operator inputs ids hids

/-- A call that succeeds adds the operator that it places, under the next index. -/
theorem named_perform_of_ok (graph : Graph) (call : Call) (answer : Answer)
    (h : (graph.perform call).answer = .ok answer) :
    (graph.perform call).graph.named =
      graph.named ++ call.placement?.toList.map fun placement =>
        placement.named graph.named.length := by
  cases call with
  | addVariable tensor => exact (List.append_nil _).symm
  | addInput tensor => exact (List.append_nil _).symm
  | addOperator name operator => exact graph.named_addOperator name operator
  | markOutput id => exact (graph.named_markOutput id).trans (List.append_nil _).symm
  | bindInput operator slot id =>
    exact (untouched_named.perform_bindInput graph operator slot id).trans
      (List.append_nil _).symm
  | execute operator =>
    exact (untouched_named.execute graph operator).trans (List.append_nil _).symm
  | apply name operator inputs =>
    obtain ⟨ids, hids, -⟩ := (answer_map_eq_ok_iff _ _ answer).mp h
    exact graph.named_apply name operator inputs ids hids
  | pool pooling x => exact graph.named_applyBuiltin _ _ answer h
  | convolve convolution x w => exact graph.named_applyBuiltin _ _ answer h
  | deconvolve deconvolution x w => exact graph.named_applyBuiltin _ _ answer h
  | logSoftmax softmax x => exact graph.named_applyBuiltin _ _ answer h

theorem named_perform (graph : Graph) (call : Call) :
    (graph.perform call).graph.named =
      graph.named ++ (graph.placedBy call).toList.map fun placement =>
        placement.named graph.named.length := by
  unfold placedBy
  cases hanswer : (graph.perform call).answer with
  | ok answer => exact graph.named_perform_of_ok call answer hanswer
  | error error =>
    rw [graph.perform_graph_of_error call error hanswer]
    exact (List.append_nil _).symm

/-- One more operator gets the next index. -/
theorem namedInTurn_append (placements : List Placement) (next : Option Placement) :
    namedInTurn (placements ++ next.toList) =
      namedInTurn placements ++ next.toList.map fun placement =>
        placement.named placements.length := by
  cases next with
  | none => simp
  | some placement => simp [namedInTurn, List.mapIdx_append]

theorem named_performAll (graph : Graph) (placements : List Placement)
    (h : graph.named = namedInTurn placements) (calls : List Call) :
    (graph.performAll calls).named = namedInTurn (placements ++ graph.placements calls) := by
  -- There are as many operators as placements so far, so the next index is the next place.
  induction calls generalizing graph placements with
  | nil => rwa [Graph.placements, List.append_nil]
  | cons call rest ih =>
    have hlength : graph.named.length = placements.length := by
      rw [h, namedInTurn, List.length_mapIdx]
    have hcall : (graph.perform call).graph.named =
        namedInTurn (placements ++ (graph.placedBy call).toList) := by
      rw [named_perform, namedInTurn_append, ← h, hlength]
    rw [Graph.placements, ← List.append_assoc]
    exact ih (graph.perform call).graph _ hcall

/-- The operator has been placed without a name, and its kind does not end in a digit. -/
structure Numbered (graph : Graph) (placements : List Placement) (id : OperatorId) (node : Node) :
    Prop where
  node_eq : graph.nodeAt id = .ok node
  unnamed : ∃ placement, placements[id.index]? = some placement ∧ placement.given = none
  kind : ¬EndsInDigit node.operator.kind

theorem Numbered.name_eq {graph : Graph} {placements : List Placement} {id : OperatorId}
    {node : Node} (h : graph.Numbered placements id node)
    (hnamed : graph.named = namedInTurn placements) :
    node.name = generatedName node.operator id.index := by
  obtain ⟨placement, hplacement, hgiven⟩ := h.unnamed
  have hnode := ((nodeAt_eq_ok_iff graph id node).mp h.node_eq).2
  have hget := congrArg (fun all => all[id.index]?) hnamed
  simp only [named, namedInTurn, List.getElem?_map, List.getElem?_mapIdx, hnode, hplacement,
    Option.map_some, Option.some.injEq, Placement.named, hgiven, Option.getD_none,
    NamedOperator.mk.injEq] at hget
  obtain ⟨hname, hoperator⟩ := hget
  rw [hname, hoperator]

/-- The operators of a graph, in whatever run, are those that its history has placed for good, and
each of them has the name that it was given or its kind and its index among them. So no two of them
that were placed without a name have the same name, if their kinds do not end in digits; and no kind
of a built-in operator does. -/
theorem generated_names_distinct (id : GraphId) (calls : List Call) :
    let graph := (Graph.new id).performAll calls
    let placements := (Graph.new id).placements calls
    graph.named = namedInTurn placements ∧
      (∀ operator other node node', graph.Numbered placements operator node →
        graph.Numbered placements other node' → operator ≠ other → node.name ≠ node'.name) ∧
      ∀ parameters : Parameters, ¬EndsInDigit parameters.operator.kind := by
  intro graph placements
  have hnamed : graph.named = namedInTurn placements := (Graph.new id).named_performAll [] rfl calls
  refine ⟨hnamed, ?_, Parameters.not_endsInDigit_kind⟩
  intro operator other node node' hnode hnode' hne hname
  rw [hnode.name_eq hnamed, hnode'.name_eq hnamed] at hname
  obtain ⟨-, hindex⟩ := append_number_injective _ _ _ _ hnode.kind hnode'.kind hname
  obtain ⟨howner, -⟩ := nodeAt_issued graph operator node hnode.node_eq
  obtain ⟨howner', -⟩ := nodeAt_issued graph other node' hnode'.node_eq
  exact hne (operatorId_eq_of_index_eq operator other (howner.trans howner'.symm) hindex)

/-- An application that succeeds, one that fails, and a placement that gets the index of the
withdrawn operator. -/
def renumbered : List Call :=
  [.addInput (strip 2), .logSoftmax ⟨.batch⟩ ⟨⟨0⟩, 0⟩, .apply none refusing [("x", ⟨⟨0⟩, 0⟩)],
    .addOperator none refusing]

theorem generated_names_distinct_renumbered :
    ∃ node node', ((Graph.new ⟨0⟩).performAll renumbered).nodeAt ⟨⟨0⟩, 0⟩ = .ok node ∧
      ((Graph.new ⟨0⟩).performAll renumbered).nodeAt ⟨⟨0⟩, 1⟩ = .ok node' ∧
      node.name = "LogSoftmax0" ∧ node'.name = "Refusing1" ∧ node.name ≠ node'.name ∧
      ((Graph.new ⟨0⟩).placements renumbered).map Placement.given = [none, none] := by
  obtain ⟨-, hdistinct, -⟩ := generated_names_distinct ⟨0⟩ renumbered
  refine ⟨_, _, rfl, rfl, rfl, rfl, ?_, rfl⟩
  exact hdistinct ⟨⟨0⟩, 0⟩ ⟨⟨0⟩, 1⟩ _ _ ⟨rfl, ⟨_, rfl, rfl⟩, by decide⟩
    ⟨rfl, ⟨_, rfl, rfl⟩, by decide⟩ (by decide)

end Graph

end AxisGraph
