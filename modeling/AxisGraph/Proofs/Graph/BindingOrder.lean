import AxisGraph.Proofs.Graph.Trace

/-!
Bindings in any order. Two bindings get in each other's way only when both want the same slot of the
same operator, and then one of them is refused in either order. So the order decides neither whether
all of them succeed nor which graph they lead to, and an operator that is applied to its inputs does
not depend on the order in which they are listed.
-/

namespace AxisGraph.Graph

/-- A variable to be bound to a slot of an operator. -/
structure Link where
  operator : OperatorId
  slot : String
  id : VariableId
  deriving DecidableEq

/-- What the link occupies. -/
def Link.place (link : Link) : OperatorId × String := (link.operator, link.slot)

/-- Bind links one after the other, up to the first failure. -/
def bindLinks (graph : Graph) (links : List Link) : Except GraphError Graph :=
  links.foldlM (fun graph link => graph.bindInput link.operator link.slot link.id) graph

/-- The slot of the link is declared and open, and its variable is known. -/
def Accepts (graph : Graph) (link : Link) : Prop :=
  ∃ node, graph.Binding link.operator link.slot link.id node

/-- The graph with the link bound. -/
abbrev withLink (graph : Graph) (link : Link) : Graph :=
  graph.bound link.operator link.slot link.id

theorem Accepts.graph_eq {graph : Graph} {link : Link} (h : graph.Accepts link) :
    link.operator.graph = graph.id := by
  obtain ⟨node, hbinding⟩ := h
  exact hbinding.graph_eq

/-- A link that is bound closes its own slot, and nothing else changes for other links. -/
theorem accepts_withLink_iff (graph : Graph) (first second : Link) (h : graph.Accepts first) :
    (graph.withLink first).Accepts second ↔
      graph.Accepts second ∧ first.place ≠ second.place := by
  have hnodes := graph.nodeAt_bound first.operator first.slot first.id h.graph_eq second.operator
  constructor
  · rintro ⟨node, hbinding⟩
    obtain ⟨old, hold, rfl⟩ := (hnodes node).mp hbinding.node_eq
    by_cases hoperator : second.operator = first.operator
    · rw [if_pos hoperator] at hbinding
      have hfree := hbinding.free
      simp only [NameMap.find?_insert] at hfree
      have hslot : second.slot ≠ first.slot := by
        intro hslot
        rw [if_pos hslot] at hfree
        cases hfree
      rw [if_neg hslot] at hfree
      exact ⟨⟨old, hold, hbinding.issued, hbinding.unfrozen, hbinding.declared, hfree⟩,
        fun hplace => hslot (congrArg Prod.snd hplace).symm⟩
    · rw [if_neg hoperator] at hbinding
      exact ⟨⟨old, hold, hbinding.issued, hbinding.unfrozen, hbinding.declared, hbinding.free⟩,
        fun hplace => hoperator (congrArg Prod.fst hplace).symm⟩
  · rintro ⟨⟨node, hbinding⟩, hplace⟩
    by_cases hoperator : second.operator = first.operator
    · have hslot : second.slot ≠ first.slot := fun hslot =>
        hplace (Prod.ext hoperator.symm hslot.symm)
      refine ⟨{ node with inputs := node.inputs.insert first.slot first.id }, ?_,
        hbinding.issued, hbinding.unfrozen, hbinding.declared, ?_⟩
      · exact (hnodes _).mpr ⟨node, hbinding.node_eq, (if_pos hoperator).symm⟩
      · rw [NameMap.find?_insert, if_neg hslot]
        exact hbinding.free
    · exact ⟨node, (hnodes _).mpr ⟨node, hbinding.node_eq, (if_neg hoperator).symm⟩,
        hbinding.issued, hbinding.unfrozen, hbinding.declared, hbinding.free⟩

theorem withLink_comm (graph : Graph) (first second : Link)
    (hfirst : first.operator.graph = graph.id) (hsecond : second.operator.graph = graph.id)
    (hplace : first.place ≠ second.place) :
    (graph.withLink first).withLink second = (graph.withLink second).withLink first := by
  simp only [withLink, bound, modifyNode, Graph.mk.injEq, true_and, and_true]
  by_cases hindex : first.operator.index = second.operator.index
  · have hoperator := operatorId_eq_of_index_eq _ _ (hfirst.trans hsecond.symm) hindex
    have hslot : first.slot ≠ second.slot := fun hslot => hplace (Prod.ext hoperator hslot)
    rw [hindex, List.modify_modify_eq, List.modify_modify_eq]
    congr 1
    funext node
    simp only [Function.comp_apply, node.inputs.insert_comm _ _ first.id second.id hslot]
  · exact List.modify_modify_ne _ _ _ hindex

theorem bindLinks_cons_eq_ok_iff (graph final : Graph) (link : Link) (rest : List Link) :
    graph.bindLinks (link :: rest) = .ok final ↔
      graph.Accepts link ∧ (graph.withLink link).bindLinks rest = .ok final := by
  unfold bindLinks
  rw [List.foldlM_cons, bind_eq_ok_iff]
  simp only [bindInput_eq_ok_iff]
  constructor
  · rintro ⟨changed, ⟨haccepts, rfl⟩, hrest⟩
    exact ⟨haccepts, hrest⟩
  · rintro ⟨haccepts, hrest⟩
    exact ⟨_, ⟨haccepts, rfl⟩, hrest⟩

theorem bindLinks_swap (graph final : Graph) (first second : Link) (rest : List Link)
    (h : graph.bindLinks (first :: second :: rest) = .ok final) :
    graph.bindLinks (second :: first :: rest) = .ok final := by
  simp only [bindLinks_cons_eq_ok_iff] at h ⊢
  obtain ⟨hfirst, hboth, hrest⟩ := h
  obtain ⟨hsecond, hplace⟩ := (graph.accepts_withLink_iff first second hfirst).mp hboth
  refine ⟨hsecond, (graph.accepts_withLink_iff second first hsecond).mpr ⟨hfirst, hplace.symm⟩, ?_⟩
  rw [← graph.withLink_comm first second hfirst.graph_eq hsecond.graph_eq hplace]
  exact hrest

theorem bindLinks_perm (graph final : Graph) (links others : List Link) (h : links.Perm others) :
    graph.bindLinks links = .ok final ↔ graph.bindLinks others = .ok final := by
  induction h generalizing graph with
  | nil => exact Iff.rfl
  | cons link _ ih => simp only [bindLinks_cons_eq_ok_iff, ih]
  | swap first second rest =>
    exact ⟨graph.bindLinks_swap final second first rest,
      graph.bindLinks_swap final first second rest⟩
  | trans _ _ ih ih' => exact (ih graph).trans (ih' graph)

/-- Links that can be bound one after the other could each be bound at the start. -/
theorem accepts_of_bindLinks (graph final : Graph) (links : List Link)
    (h : graph.bindLinks links = .ok final) : ∀ link ∈ links, graph.Accepts link := by
  induction links generalizing graph with
  | nil => exact List.forall_mem_nil _
  | cons first rest ih =>
    obtain ⟨hfirst, hrest⟩ := (graph.bindLinks_cons_eq_ok_iff final first rest).mp h
    refine List.forall_mem_cons.mpr ⟨hfirst, ?_⟩
    intro link hmem
    exact ((graph.accepts_withLink_iff first link hfirst).mp (ih _ hrest link hmem)).1

theorem nodup_places_of_bindLinks (graph final : Graph) (links : List Link)
    (h : graph.bindLinks links = .ok final) : (links.map Link.place).Nodup := by
  induction links generalizing graph with
  | nil => exact .nil
  | cons first rest ih =>
    obtain ⟨hfirst, hrest⟩ := (graph.bindLinks_cons_eq_ok_iff final first rest).mp h
    refine List.nodup_cons.mpr ⟨?_, ih _ hrest⟩
    intro hmem
    obtain ⟨link, hlink, hplace⟩ := List.mem_map.mp hmem
    have haccepts := (graph.withLink first).accepts_of_bindLinks final rest hrest link hlink
    exact ((graph.accepts_withLink_iff first link hfirst).mp haccepts).2 hplace.symm

theorem perm_of_bindLinks (graph final other : Graph) (links others : List Link)
    (hmem : ∀ link, link ∈ links ↔ link ∈ others) (h : graph.bindLinks links = .ok final)
    (h' : graph.bindLinks others = .ok other) : links.Perm others :=
  (List.perm_ext_iff_of_nodup ((graph.nodup_places_of_bindLinks final links h).of_map _)
    ((graph.nodup_places_of_bindLinks other others h').of_map _)).mpr hmem

/-- The inputs of an operator as links. -/
def links (operator : OperatorId) (inputs : List (String × VariableId)) : List Link :=
  inputs.map fun input => ⟨operator, input.1, input.2⟩

theorem bindInputs_eq_iff (graph final : Graph) (operator : OperatorId)
    (inputs : List (String × VariableId)) :
    graph.bindInputs operator inputs = .of (.ok ()) final ↔
      graph.bindLinks (links operator inputs) = .ok final := by
  induction inputs generalizing graph with
  | nil => simp [bindInputs, Outcome.of, links, bindLinks, pure, Except.pure]
  | cons input rest ih =>
    obtain ⟨slot, id⟩ := input
    simp only [bindInputs, links, List.map_cons, bindLinks, List.foldlM_cons]
    cases graph.bindInput operator slot id with
    | error error => simp [Outcome.of, bind, Except.bind]
    | ok extended => exact ih extended

section Application

variable (graph : Graph) (name : Option String) (operator : Operator)
  (inputs others : List (String × VariableId))

theorem bindNext_eq_of_ok (h : (graph.bindNext name operator inputs).answer = .ok ()) :
    graph.bindNext name operator inputs =
      .of (.ok ()) (graph.bindNext name operator inputs).graph := by
  have hlog := graph.log_bindNext name operator inputs
  generalize graph.bindNext name operator inputs = outcome at h hlog ⊢
  obtain ⟨answer, after, log⟩ := outcome
  subst h hlog
  rfl

/-- An order of the inputs that can be bound leads to the same graph as any other one. -/
theorem bindNext_perm (hperm : inputs.Perm others)
    (h : (graph.bindNext name operator inputs).answer = .ok ()) :
    graph.bindNext name operator others = graph.bindNext name operator inputs := by
  have hbound := graph.bindNext_eq_of_ok name operator inputs h
  have hlinks := (bindInputs_eq_iff _ _ graph.nextOperator inputs).mp hbound
  have hothers := (bindLinks_perm _ _ _ _ (hperm.map _)).mp hlinks
  exact ((bindInputs_eq_iff _ _ graph.nextOperator others).mpr hothers).trans hbound.symm

theorem bound_of_apply (ids : List VariableId)
    (h : (graph.apply name operator inputs).answer = .ok ids) :
    (graph.bindNext name operator inputs).answer = .ok () := by
  cases hbound : (graph.bindNext name operator inputs).answer with
  | ok value => rfl
  | error error =>
    rw [(graph.apply_of_refused name operator inputs error hbound).2] at h
    cases h

theorem apply_perm (hperm : inputs.Perm others)
    (h : (graph.bindNext name operator inputs).answer = .ok ()) :
    graph.apply name operator others = graph.apply name operator inputs := by
  rw [apply_eq, apply_eq, assemble_eq, assemble_eq,
    graph.bindNext_perm name operator inputs others hperm h]

end Application

/-- Bindings can be made in any order. An operator applied to the same inputs in two orders has its
inputs bound either both times or neither time, and once they are bound the two applications have
the same outcome, be it a success or the failure of the operator; and the same links bound in two
orders lead to the same graph. -/
theorem bound_in_any_order (graph : Graph) :
    (∀ name operator inputs others, inputs.Perm others →
      ((graph.bindNext name operator inputs).answer = .ok () ↔
        (graph.bindNext name operator others).answer = .ok ()) ∧
      ((graph.bindNext name operator inputs).answer = .ok () →
        graph.apply name operator others = graph.apply name operator inputs) ∧
      ((∃ ids, (graph.apply name operator inputs).answer = .ok ids) ↔
        ∃ ids, (graph.apply name operator others).answer = .ok ids) ∧
      ∀ ids, (graph.apply name operator inputs).answer = .ok ids →
        graph.apply name operator others = graph.apply name operator inputs) ∧
    (∀ links others, links.Perm others → ∀ final,
      graph.bindLinks links = .ok final ↔ graph.bindLinks others = .ok final) ∧
    ∀ links others final other, (∀ link, link ∈ links ↔ link ∈ others) →
      graph.bindLinks links = .ok final → graph.bindLinks others = .ok other → other = final := by
  refine ⟨?_, fun links others hperm final => graph.bindLinks_perm final links others hperm, ?_⟩
  · intro name operator inputs others hperm
    have hforth := graph.apply_perm name operator inputs others hperm
    have hback := graph.apply_perm name operator others inputs hperm.symm
    refine ⟨⟨fun h => ?_, fun h => ?_⟩, hforth, ⟨?_, ?_⟩, fun ids h => ?_⟩
    · rw [graph.bindNext_perm name operator inputs others hperm h, h]
    · rw [graph.bindNext_perm name operator others inputs hperm.symm h, h]
    · rintro ⟨ids, h⟩
      exact ⟨ids, hforth (graph.bound_of_apply name operator inputs ids h) ▸ h⟩
    · rintro ⟨ids, h⟩
      exact ⟨ids, hback (graph.bound_of_apply name operator others ids h) ▸ h⟩
    · exact hforth (graph.bound_of_apply name operator inputs ids h)
  · intro links others final other hmem h h'
    have hperm := graph.perm_of_bindLinks final other links others hmem h h'
    exact Except.ok.inj (h'.symm.trans ((graph.bindLinks_perm final links others hperm).mp h))

/-- A graph with an image, a weight and two operators whose slots are open. -/
def vacant : Graph :=
  (Graph.new ⟨0⟩).performAll [
    .addInput picture,
    .addVariable palette,
    .addOperator none pointwise.operator,
    .addOperator none (Parameters.logSoftmax ⟨.batch⟩).operator]

/-- Links to both operators, those of the convolution apart from each other. -/
def spread : List Link :=
  [⟨⟨⟨0⟩, 0⟩, "x", ⟨⟨0⟩, 0⟩⟩, ⟨⟨⟨0⟩, 1⟩, "x", ⟨⟨0⟩, 1⟩⟩, ⟨⟨⟨0⟩, 0⟩, "w", ⟨⟨0⟩, 1⟩⟩]

/-- A convolution succeeds on the image and the weight and fails on them in exchanged roles. Either
way it does not matter which is bound first. -/
theorem bound_in_any_order_vacant :
    vacant.apply none pointwise.operator [("w", ⟨⟨0⟩, 1⟩), ("x", ⟨⟨0⟩, 0⟩)] =
      vacant.apply none pointwise.operator [("x", ⟨⟨0⟩, 0⟩), ("w", ⟨⟨0⟩, 1⟩)] ∧
    (vacant.apply none pointwise.operator [("x", ⟨⟨0⟩, 0⟩), ("w", ⟨⟨0⟩, 1⟩)]).answer =
      .ok [⟨⟨0⟩, 2⟩] ∧
    vacant.apply none pointwise.operator [("w", ⟨⟨0⟩, 0⟩), ("x", ⟨⟨0⟩, 1⟩)] =
      vacant.apply none pointwise.operator [("x", ⟨⟨0⟩, 1⟩), ("w", ⟨⟨0⟩, 0⟩)] ∧
    (vacant.apply none pointwise.operator [("x", ⟨⟨0⟩, 1⟩), ("w", ⟨⟨0⟩, 0⟩)]).answer =
      .error (.incompatibleShape "Convolution2D2"
        (.weightKernel ⟨nearestExtent 3, nearestExtent 5⟩ Convolution.undilated)) ∧
    ∃ final, vacant.bindLinks spread = .ok final ∧ vacant.bindLinks spread.reverse = .ok final ∧
      ∀ other, vacant.bindLinks spread.reverse = .ok other → other = final := by
  obtain ⟨happly, hlinks, hsame⟩ := bound_in_any_order vacant
  obtain ⟨-, -, -, hsuccess⟩ := happly none pointwise.operator
    [("x", ⟨⟨0⟩, 0⟩), ("w", ⟨⟨0⟩, 1⟩)] [("w", ⟨⟨0⟩, 1⟩), ("x", ⟨⟨0⟩, 0⟩)] (.swap _ _ _)
  obtain ⟨-, hfailure, -⟩ := happly none pointwise.operator
    [("x", ⟨⟨0⟩, 1⟩), ("w", ⟨⟨0⟩, 0⟩)] [("w", ⟨⟨0⟩, 0⟩), ("x", ⟨⟨0⟩, 1⟩)] (.swap _ _ _)
  have hreverse := (hlinks spread spread.reverse (List.reverse_perm spread).symm _).mp rfl
  exact ⟨hsuccess [⟨⟨0⟩, 2⟩] rfl, rfl, hfailure rfl, rfl, _, rfl, hreverse, fun other =>
    hsame spread spread.reverse _ other (fun _ => List.mem_reverse.symm) rfl⟩

end AxisGraph.Graph
