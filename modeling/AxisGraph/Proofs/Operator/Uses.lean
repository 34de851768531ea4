import AxisGraph.Proofs.Operator.Recording

/-!
The uses that a body makes of its context, each with its answer. Whatever the body makes of the
answers, the record in the end is told by the list of its uses: the first output that was offered
for each slot, the first occurrence of each attribute, and every diagnostic, all in the order of the
uses. An output whose slot is taken is refused and leaves no trace.
-/

namespace AxisGraph

section Firsts

variable {α κ : Type} [DecidableEq κ] (key : α → κ)

/-- The entries of a list whose key no earlier entry has. -/
def firstsBy : List α → List α
  | [] => []
  | entry :: rest => entry :: (firstsBy rest).filter fun later => key later ≠ key entry

theorem mem_map_firstsBy (entries : List α) (k : κ) :
    k ∈ (firstsBy key entries).map key ↔ k ∈ entries.map key := by
  induction entries with
  | nil => rfl
  | cons entry rest ih =>
    simp only [firstsBy, List.map_cons, List.mem_cons, List.mem_map, List.mem_filter,
      decide_eq_true_eq] at ih ⊢
    by_cases hkey : k = key entry
    · simp [hkey]
    · simp only [hkey, false_or, ← ih]
      constructor
      · rintro ⟨later, ⟨hmem, -⟩, rfl⟩
        exact ⟨later, hmem, rfl⟩
      · rintro ⟨later, hmem, rfl⟩
        exact ⟨later, ⟨hmem, hkey⟩, rfl⟩

theorem firstsBy_concat (entries : List α) (entry : α) :
    firstsBy key (entries ++ [entry]) =
      if key entry ∈ entries.map key then firstsBy key entries
      else firstsBy key entries ++ [entry] := by
  induction entries with
  | nil => rfl
  | cons first rest ih =>
    simp only [List.cons_append, firstsBy, ih, List.map_cons, List.mem_cons]
    by_cases hrest : key entry ∈ rest.map key
    · rw [if_pos hrest, if_pos (Or.inr hrest)]
    · rw [if_neg hrest, List.filter_append]
      by_cases hfirst : key entry = key first
      · simp [hfirst]
      · simp [hrest, hfirst]

theorem nodup_map_firstsBy (entries : List α) : ((firstsBy key entries).map key).Nodup := by
  induction entries with
  | nil => exact .nil
  | cons entry rest ih =>
    simp only [firstsBy, List.map_cons, List.nodup_cons]
    refine ⟨?_, (List.filter_sublist.map key).nodup ih⟩
    simp

end Firsts

/-- One use of the context, with what it answers. -/
inductive Use where
  | input (slot : String) (answer : Except GraphError Tensor)
  | output (slot : String) (tensor : Tensor) (answer : Except GraphError Unit)
  | attach (mark : Attribute)
  | report (diagnostic : Diagnostic)

namespace Use

/-- The output that is offered, whether the context takes it or not. -/
def offer? : Use → Option (String × Tensor)
  | output slot tensor _ => some (slot, tensor)
  | _ => none

def mark? : Use → Option Attribute
  | attach mark => some mark
  | _ => none

def diagnostic? : Use → Option Diagnostic
  | report diagnostic => some diagnostic
  | _ => none

/-- The slots for which an output is offered. -/
def slots (uses : List Use) : List String := (uses.filterMap offer?).map Prod.fst

/-- The first offer for each slot. -/
def firstOffers (uses : List Use) : List (String × Tensor) :=
  firstsBy Prod.fst (uses.filterMap offer?)

/-- The first attachment of each attribute. -/
def firstMarks (uses : List Use) : List Attribute := firstsBy id (uses.filterMap mark?)

def diagnostics (uses : List Use) : List Diagnostic := uses.filterMap diagnostic?

variable (uses : List Use)

theorem filterMap_concat_of_none {α : Type} (f : Use → Option α) (use : Use) (h : f use = none) :
    (uses ++ [use]).filterMap f = uses.filterMap f := by
  rw [List.filterMap_append, List.filterMap_cons_none h, List.filterMap_nil, List.append_nil]

theorem firstOffers_concat_of_none (use : Use) (h : use.offer? = none) :
    firstOffers (uses ++ [use]) = firstOffers uses :=
  congrArg (firstsBy Prod.fst) (filterMap_concat_of_none uses offer? use h)

theorem firstMarks_concat_of_none (use : Use) (h : use.mark? = none) :
    firstMarks (uses ++ [use]) = firstMarks uses :=
  congrArg (firstsBy id) (filterMap_concat_of_none uses mark? use h)

theorem firstOffers_concat_output (slot : String) (tensor : Tensor)
    (answer : Except GraphError Unit) :
    firstOffers (uses ++ [output slot tensor answer]) =
      if slot ∈ slots uses then firstOffers uses else firstOffers uses ++ [(slot, tensor)] := by
  unfold firstOffers slots
  rw [List.filterMap_append]
  exact firstsBy_concat Prod.fst _ (slot, tensor)

theorem firstMarks_concat_attach (mark : Attribute) :
    firstMarks (uses ++ [attach mark]) =
      if mark ∈ firstMarks uses then firstMarks uses else firstMarks uses ++ [mark] := by
  have hmem : mark ∈ firstMarks uses ↔ id mark ∈ (uses.filterMap mark?).map id := by
    rw [← mem_map_firstsBy id, List.map_id]
    rfl
  simp only [hmem]
  unfold firstMarks
  rw [List.filterMap_append]
  exact firstsBy_concat id _ mark

theorem nodup_firstMarks : (firstMarks uses).Nodup := by
  have hnodup := nodup_map_firstsBy id (uses.filterMap mark?)
  rwa [List.map_id] at hnodup

end Use

namespace Context

/-- The context answers a use and becomes the next one. -/
inductive Serves (context : Context) : Use → Context → Prop
  | input (slot : String) : Serves context (.input slot (context.input slot)) context
  | taken (slot : String) (tensor : Tensor) (extended : Context)
      (h : context.appendOutput slot tensor = .ok extended) :
      Serves context (.output slot tensor (.ok ())) extended
  | refused (slot : String) (tensor : Tensor) (error : GraphError)
      (h : context.appendOutput slot tensor = .error error) :
      Serves context (.output slot tensor (.error error)) context
  | attach (mark : Attribute) : Serves context (.attach mark) (context.attach mark)
  | report (diagnostic : Diagnostic) :
      Serves context (.report diagnostic) (context.report diagnostic)

/-- The uses lead from the first context to the last one. -/
inductive Passes : Context → List Use → Context → Prop
  | nil (context : Context) : Passes context [] context
  | cons {context next last : Context} {use : Use} {rest : List Use}
      (hserves : context.Serves use next) (hrest : Passes next rest last) :
      Passes context (use :: rest) last

theorem passes_append_iff (context last : Context) (before after : List Use) :
    context.Passes (before ++ after) last ↔
      ∃ between, context.Passes before between ∧ between.Passes after last := by
  induction before generalizing context with
  | nil =>
    constructor
    · intro h
      exact ⟨context, .nil context, h⟩
    · rintro ⟨between, hbefore, hafter⟩
      cases hbefore
      exact hafter
  | cons use rest ih =>
    constructor
    · intro h
      cases h with
      | cons hserves hrest =>
        obtain ⟨between, hbefore, hafter⟩ := (ih _).mp hrest
        exact ⟨between, .cons hserves hbefore, hafter⟩
    · rintro ⟨between, hbefore, hafter⟩
      cases hbefore with
      | cons hserves hrest => exact .cons hserves ((ih _).mpr ⟨between, hrest, hafter⟩)

/-- What a context has become after these uses, if nothing was recorded in it before. -/
structure Records (started : Context) (uses : List Use) (context : Context) : Prop where
  name_eq : context.name = started.name
  inputs_eq : context.inputs = started.inputs
  outputs_eq : context.outputs = Use.firstOffers uses
  attributes_eq : context.attributes = Use.firstMarks uses
  diagnostics_eq : context.diagnostics = Use.diagnostics uses

namespace Records

variable {started context next last : Context} {uses rest : List Use}

theorem start (id : OperatorId) (name : String) (inputs : NameMap Tensor) :
    (Context.start id name inputs).Records [] (.start id name inputs) :=
  ⟨rfl, rfl, rfl, rfl, rfl⟩

theorem input_eq (h : started.Records uses context) (slot : String) :
    context.input slot = started.input slot := by
  unfold input
  rw [h.inputs_eq, h.name_eq]

/-- A slot is taken when an output was offered for it, be it the first one or not. -/
theorem appendOutput_eq (h : started.Records uses context) (slot : String) (tensor : Tensor) :
    context.appendOutput slot tensor =
      if slot ∈ Use.slots uses then .error (.slotTaken started.name slot)
      else .ok { context with outputs := context.outputs ++ [(slot, tensor)] } := by
  have hslots : slot ∈ context.outputs.map Prod.fst ↔ slot ∈ Use.slots uses := by
    rw [h.outputs_eq]
    exact mem_map_firstsBy Prod.fst _ slot
  unfold appendOutput
  simp only [hslots, h.name_eq]

/-- A use that records nothing leaves the context as it is. -/
theorem silent (h : started.Records uses context) (use : Use)
    (hoffer : Use.firstOffers (uses ++ [use]) = Use.firstOffers uses) (hmark : use.mark? = none)
    (hdiagnostic : use.diagnostic? = none) : started.Records (uses ++ [use]) context where
  name_eq := h.name_eq
  inputs_eq := h.inputs_eq
  outputs_eq := h.outputs_eq.trans hoffer.symm
  attributes_eq := h.attributes_eq.trans (Use.firstMarks_concat_of_none uses use hmark).symm
  diagnostics_eq :=
    h.diagnostics_eq.trans (Use.filterMap_concat_of_none uses Use.diagnostic? use hdiagnostic).symm

theorem taken (h : started.Records uses context) (slot : String) (tensor : Tensor)
    (hnew : slot ∉ Use.slots uses) :
    started.Records (uses ++ [.output slot tensor (.ok ())])
      { context with outputs := context.outputs ++ [(slot, tensor)] } where
  name_eq := h.name_eq
  inputs_eq := h.inputs_eq
  outputs_eq := by rw [Use.firstOffers_concat_output, if_neg hnew, h.outputs_eq]
  attributes_eq := h.attributes_eq.trans (Use.firstMarks_concat_of_none uses _ rfl).symm
  diagnostics_eq :=
    h.diagnostics_eq.trans (Use.filterMap_concat_of_none uses Use.diagnostic? _ rfl).symm

theorem attach (h : started.Records uses context) (mark : Attribute) :
    started.Records (uses ++ [.attach mark]) (context.attach mark) := by
  have houtputs := h.outputs_eq.trans (Use.firstOffers_concat_of_none uses (.attach mark) rfl).symm
  have hdiagnostics := h.diagnostics_eq.trans
    (Use.filterMap_concat_of_none uses Use.diagnostic? (.attach mark) rfl).symm
  have hmarks := Use.firstMarks_concat_attach uses mark
  rw [← h.attributes_eq] at hmarks
  unfold Context.attach
  split
  · rename_i hmem
    rw [if_pos hmem] at hmarks
    exact ⟨h.name_eq, h.inputs_eq, houtputs, hmarks.symm, hdiagnostics⟩
  · rename_i hnew
    rw [if_neg hnew] at hmarks
    exact ⟨h.name_eq, h.inputs_eq, houtputs, hmarks.symm, hdiagnostics⟩

theorem report (h : started.Records uses context) (diagnostic : Diagnostic) :
    started.Records (uses ++ [.report diagnostic]) (context.report diagnostic) where
  name_eq := h.name_eq
  inputs_eq := h.inputs_eq
  outputs_eq := h.outputs_eq.trans (Use.firstOffers_concat_of_none uses _ rfl).symm
  attributes_eq := h.attributes_eq.trans (Use.firstMarks_concat_of_none uses _ rfl).symm
  diagnostics_eq := by
    unfold Use.diagnostics
    rw [List.filterMap_append]
    exact congrArg (· ++ [diagnostic]) h.diagnostics_eq

theorem serves (h : started.Records uses context) {use : Use} (hserves : context.Serves use next) :
    started.Records (uses ++ [use]) next := by
  cases hserves with
  | input slot =>
    exact h.silent _ (Use.firstOffers_concat_of_none uses _ rfl) rfl rfl
  | taken slot tensor extended happend =>
    rw [h.appendOutput_eq] at happend
    split at happend
    · cases happend
    · rename_i hnew
      cases happend
      exact h.taken slot tensor hnew
  | refused slot tensor error happend =>
    rw [h.appendOutput_eq] at happend
    split at happend
    · rename_i hslot
      refine h.silent _ ?_ rfl rfl
      rw [Use.firstOffers_concat_output, if_pos hslot]
    · cases happend
  | attach mark => exact h.attach mark
  | report diagnostic => exact h.report diagnostic

theorem passes (h : started.Records uses context) (hpasses : context.Passes rest last) :
    started.Records (uses ++ rest) last := by
  induction hpasses generalizing uses with
  | nil context => rwa [List.append_nil]
  | cons hserves hrest ih =>
    have hlast := ih (h.serves hserves)
    rwa [List.append_assoc] at hlast

end Records

/-- A list of uses of a fresh context: each has got the answer that is due after the uses before it,
and the record in the end is what they amount to. -/
structure Recounts (started : Context) (uses : List Use) (recorded : Context) : Prop where
  passes : started.Passes uses recorded
  records : started.Records uses recorded
  attributes_nodup : recorded.attributes.Nodup
  input : ∀ slot answer, .input slot answer ∈ uses → answer = started.input slot
  first : ∀ before slot tensor answer after, uses = before ++ .output slot tensor answer :: after →
    slot ∉ Use.slots before → answer = .ok ()
  again : ∀ before slot tensor answer after, uses = before ++ .output slot tensor answer :: after →
    slot ∈ Use.slots before → answer = .error (.slotTaken started.name slot) ∧
      ∃ held, started.Passes before held ∧ held.Passes after recorded

theorem recounts_of_passes (id : OperatorId) (name : String) (inputs : NameMap Tensor)
    (uses : List Use) (recorded : Context)
    (h : (start id name inputs).Passes uses recorded) :
    (start id name inputs).Recounts uses recorded := by
  have hstart := Records.start id name inputs
  have hrecords := hstart.passes h
  have hsplit : ∀ before use after, uses = before ++ use :: after →
      ∃ held next, (start id name inputs).Passes before held ∧
        (start id name inputs).Records before held ∧ held.Serves use next ∧
          next.Passes after recorded := by
    rintro before use after rfl
    obtain ⟨held, hbefore, hafter⟩ := (passes_append_iff _ _ _ _).mp h
    cases hafter with
    | cons hserves hrest => exact ⟨held, _, hbefore, hstart.passes hbefore, hserves, hrest⟩
  exact {
    passes := h
    records := hrecords
    attributes_nodup := hrecords.attributes_eq ▸ Use.nodup_firstMarks uses
    input := by
      intro slot answer hmem
      obtain ⟨before, after, huses⟩ := List.append_of_mem hmem
      obtain ⟨held, next, -, hheld, hserves, -⟩ := hsplit before _ after huses
      cases hserves
      exact hheld.input_eq slot
    first := by
      intro before slot tensor answer after huses hnew
      obtain ⟨held, next, -, hheld, hserves, -⟩ := hsplit before _ after huses
      have happend := hheld.appendOutput_eq slot tensor
      rw [if_neg hnew] at happend
      cases hserves with
      | taken slot tensor extended h => rfl
      | refused slot tensor error h =>
        rw [happend] at h
        cases h
    again := by
      intro before slot tensor answer after huses hslot
      obtain ⟨held, next, hbefore, hheld, hserves, hafter⟩ := hsplit before _ after huses
      have happend := hheld.appendOutput_eq slot tensor
      rw [if_pos hslot] at happend
      cases hserves with
      | taken slot tensor extended h =>
        rw [happend] at h
        cases h
      | refused slot tensor error h =>
        rw [happend] at h
        cases h
        exact ⟨rfl, held, hbefore, hafter⟩ }

end Context

namespace Body

variable {α : Type}

/-- The uses that a run makes of its context, in their order, with the answers that the body goes on
with. -/
def uses : Body α → Context → List Use
  | finish _, _ => []
  | input slot next, context =>
    .input slot (context.input slot) :: (next (context.input slot)).uses context
  | output slot tensor next, context =>
    match context.appendOutput slot tensor with
    | .ok extended => .output slot tensor (.ok ()) :: (next (.ok ())).uses extended
    | .error error => .output slot tensor (.error error) :: (next (.error error)).uses context
  | attach mark next, context => .attach mark :: next.uses (context.attach mark)
  | report diagnostic next, context => .report diagnostic :: next.uses (context.report diagnostic)

theorem passes_run (body : Body α) (context : Context) :
    context.Passes (body.uses context) (body.run context).2 := by
  induction body generalizing context with
  | finish result => exact .nil context
  | input slot next ih => exact .cons (.input slot) (ih (context.input slot) context)
  | output slot tensor next ih =>
    simp only [uses, run]
    cases happend : context.appendOutput slot tensor with
    | ok extended => exact .cons (.taken slot tensor extended happend) (ih (.ok ()) extended)
    | error error => exact .cons (.refused slot tensor error happend) (ih (.error error) context)
  | attach mark next ih => exact .cons (.attach mark) (ih (context.attach mark))
  | report diagnostic next ih => exact .cons (.report diagnostic) (ih (context.report diagnostic))

/-- Every run of a body recounts what its context has recorded. -/
theorem recounts_run (body : Body α) (id : OperatorId) (name : String) (inputs : NameMap Tensor) :
    (Context.start id name inputs).Recounts (body.uses (.start id name inputs))
      (body.run (.start id name inputs)).2 :=
  Context.recounts_of_passes id name inputs _ _ (body.passes_run _)

end Body

end AxisGraph
