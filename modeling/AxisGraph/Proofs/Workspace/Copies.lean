import AxisGraph.Proofs.Graph.Atomicity
import AxisGraph.Proofs.Graph.History
import AxisGraph.Workspace
import Mathlib.Data.List.Induction

/-!
Handles among several graphs. Every graph of a workspace has a past: the creation that it goes back
to and the calls made on it since, those made before it was copied included. A graph knows only
handles of its own creation. Graphs of one creation agree on a handle that was handed out while they
were one graph; copies that have parted can both hand out the same handle, each for something of its
own.
-/

namespace AxisGraph

/-- The handle names an operator of the graph. -/
def Graph.Hosts (graph : Graph) (id : OperatorId) : Prop := ∃ node, graph.nodeAt id = .ok node

namespace Workspace

/-- What a caller can do with the graphs of a workspace. -/
inductive Command where
  | create (name : String)
  | copy (source target : String)
  | perform (name : String) (call : Graph.Call)

def step (workspace : Workspace) : Command → Workspace
  | .create name => workspace.create name
  | .copy source target => workspace.copy source target
  | .perform name call =>
    match workspace.perform name call with
    | some (_, changed) => changed
    | none => workspace

/-- The workspace after a list of commands. -/
def run (commands : List Command) : Workspace := commands.foldl step empty

/-- How a graph came about: its creation, counted from the first one, and the calls since. -/
structure Past where
  creation : Nat
  calls : List Graph.Call

namespace Past

def graph (past : Past) : Graph := (Graph.new ⟨past.creation⟩).performAll past.calls

def after (past : Past) (call : Graph.Call) : Past :=
  { past with calls := past.calls ++ [call] }

/-- The second past is the first one and what has happened since. -/
structure Precedes (past later : Past) : Prop where
  creation_eq : later.creation = past.creation
  calls_prefix : past.calls <+: later.calls

namespace Precedes

theorem refl (past : Past) : past.Precedes past := ⟨rfl, List.prefix_refl _⟩

theorem trans {past middle later : Past} (h : past.Precedes middle) (h' : middle.Precedes later) :
    past.Precedes later :=
  ⟨h'.creation_eq.trans h.creation_eq, h.calls_prefix.trans h'.calls_prefix⟩

theorem after (past : Past) (call : Graph.Call) : past.Precedes (past.after call) :=
  ⟨rfl, List.prefix_append _ _⟩

theorem graph_extends {past later : Past} (h : past.Precedes later) :
    past.graph.Extends later.graph := by
  obtain ⟨since, hcalls⟩ := h.calls_prefix
  have hgraph : later.graph = past.graph.performAll since := by
    simp only [graph, h.creation_eq, ← hcalls, Graph.performAll, List.foldl_append]
  rw [hgraph]
  exact Graph.performAll_extends past.graph since

end Precedes

theorem graph_after (past : Past) (call : Graph.Call) :
    (past.after call).graph = (past.graph.perform call).graph := by
  simp only [graph, after, Graph.performAll, List.foldl_append, List.foldl_cons, List.foldl_nil]

theorem graph_id (past : Past) : past.graph.id = ⟨past.creation⟩ :=
  (Graph.performAll_extends (.new ⟨past.creation⟩) past.calls).id_eq

/-- The property came with this call, made when the graph had the past of the base. -/
structure CameWith (past : Past) (property : Graph → Prop) (base : Past) (call : Graph.Call) :
    Prop where
  precedes : (base.after call).Precedes past
  absent : ¬ property base.graph
  present : property (base.after call).graph

/-- What holds of a graph and of no empty one came with a call. -/
theorem exists_cameWith (past : Past) (property : Graph → Prop)
    (hempty : ∀ id, ¬ property (.new id)) (h : property past.graph) :
    ∃ base call, past.CameWith property base call := by
  obtain ⟨creation, calls⟩ := past
  induction calls using List.reverseRecOn with
  | nil => exact absurd h (hempty ⟨creation⟩)
  | append_singleton calls call ih =>
    by_cases hbase : property (graph ⟨creation, calls⟩)
    · obtain ⟨base, first, hfirst⟩ := ih hbase
      exact ⟨base, first, hfirst.precedes.trans (.after _ call), hfirst.absent, hfirst.present⟩
    · exact ⟨⟨creation, calls⟩, call, .refl _, hbase, h⟩

/-- The property came with a call that the other graph has not seen. -/
def CameApart (past other : Past) (property : Graph → Prop) : Prop :=
  ∃ base call, past.CameWith property base call ∧ ¬ (base.after call).Precedes other

/-- What two graphs share, they have from a time when they were one graph, or each has it from a
call of its own. -/
theorem common_or_apart (past later : Past) (property : Graph → Prop)
    (hempty : ∀ id, ¬ property (.new id)) (h : property past.graph) (h' : property later.graph) :
    (∃ common : Past, common.Precedes past ∧ common.Precedes later ∧ property common.graph) ∨
      (past.CameApart later property ∧ later.CameApart past property) := by
  obtain ⟨base, call, hcame⟩ := past.exists_cameWith property hempty h
  obtain ⟨base', call', hcame'⟩ := later.exists_cameWith property hempty h'
  by_cases hlater : (base.after call).Precedes later
  · exact Or.inl ⟨_, hcame.precedes, hlater, hcame.present⟩
  · by_cases hpast : (base'.after call').Precedes past
    · exact Or.inl ⟨_, hpast, hcame'.precedes, hcame'.present⟩
    · exact Or.inr ⟨⟨base, call, hcame, hlater⟩, ⟨base', call', hcame', hpast⟩⟩

/-- What the handles of the first graph are to the second one. -/
structure Resolves (past later : Past) : Prop where
  variable_refused : later.creation ≠ past.creation → ∀ v, past.graph.Issued v →
    later.graph.variableAt v = .error (.unknownVariable v)
  operator_refused : later.creation ≠ past.creation → ∀ id, past.graph.Hosts id →
    later.graph.nodeAt id = .error (.unknownOperator id)
  kept : past.Precedes later → past.graph.Extends later.graph
  variable_eq : ∀ v found other, past.graph.variableAt v = .ok found →
    later.graph.variableAt v = .ok other →
    other = found ∨ (past.CameApart later (·.Issued v) ∧ later.CameApart past (·.Issued v))
  operator_eq : ∀ id node other, past.graph.nodeAt id = .ok node →
    later.graph.nodeAt id = .ok other →
    (other.name = node.name ∧ other.operator = node.operator) ∨
      (past.CameApart later (·.Hosts id) ∧ later.CameApart past (·.Hosts id))

theorem creation_eq_of_owner (past later : Past) (owner : GraphId) (h : owner = past.graph.id)
    (h' : owner = later.graph.id) : later.creation = past.creation := by
  rw [graph_id] at h h'
  exact GraphId.mk.inj (h'.symm.trans h)

theorem variableAt_refused (past later : Past) (hcreation : later.creation ≠ past.creation)
    (v : VariableId) (h : past.graph.Issued v) :
    later.graph.variableAt v = .error (.unknownVariable v) := by
  have hpast := ((Graph.issued_iff past.graph v).mp h).1
  cases hother : later.graph.variableAt v with
  | error error => rw [later.graph.variableAt_error v error hother]
  | ok other =>
    have hlater := ((Graph.issued_iff later.graph v).mp ⟨other, hother⟩).1
    exact absurd (creation_eq_of_owner past later v.graph hpast hlater) hcreation

theorem nodeAt_refused (past later : Past) (hcreation : later.creation ≠ past.creation)
    (id : OperatorId) (h : past.graph.Hosts id) :
    later.graph.nodeAt id = .error (.unknownOperator id) := by
  obtain ⟨node, hnode⟩ := h
  have hpast := (Graph.nodeAt_issued past.graph id node hnode).1
  cases hother : later.graph.nodeAt id with
  | error error => rw [later.graph.nodeAt_error id error hother]
  | ok other =>
    have hlater := (Graph.nodeAt_issued later.graph id other hother).1
    exact absurd (creation_eq_of_owner past later id.graph hpast hlater) hcreation

theorem not_issued_new (empty : GraphId) (v : VariableId) : ¬ (Graph.new empty).Issued v := by
  rw [Graph.issued_iff]
  intro h
  exact absurd h.2 (Nat.not_lt_zero _)

theorem not_hosts_new (empty : GraphId) (id : OperatorId) : ¬ (Graph.new empty).Hosts id := by
  intro h
  obtain ⟨node, hnode⟩ := h
  exact absurd (Graph.nodeAt_issued _ id node hnode).2 (Nat.not_lt_zero _)

theorem variable_eq_or_apart (past later : Past) (v : VariableId) (found other : Variable)
    (h : past.graph.variableAt v = .ok found) (h' : later.graph.variableAt v = .ok other) :
    other = found ∨ (past.CameApart later (·.Issued v) ∧ later.CameApart past (·.Issued v)) := by
  rcases common_or_apart past later (·.Issued v) (not_issued_new · v) ⟨found, h⟩ ⟨other, h'⟩ with
    hcommon | hapart
  · obtain ⟨common, hpast, hlater, given, hgiven⟩ := hcommon
    have hfound := hpast.graph_extends.vars v given hgiven
    have hother := hlater.graph_extends.vars v given hgiven
    exact Or.inl (Except.ok.inj ((h'.symm.trans hother).trans (hfound.symm.trans h)))
  · exact Or.inr hapart

theorem operator_eq_or_apart (past later : Past) (id : OperatorId) (node other : Node)
    (h : past.graph.nodeAt id = .ok node) (h' : later.graph.nodeAt id = .ok other) :
    (other.name = node.name ∧ other.operator = node.operator) ∨
      (past.CameApart later (·.Hosts id) ∧ later.CameApart past (·.Hosts id)) := by
  rcases common_or_apart past later (·.Hosts id) (not_hosts_new · id) ⟨node, h⟩ ⟨other, h'⟩ with
    hcommon | hapart
  · obtain ⟨common, hpast, hlater, given, hgiven⟩ := hcommon
    obtain ⟨grown, hgrown, hgrows⟩ := hpast.graph_extends.nodes id given hgiven
    obtain ⟨grown', hgrown', hgrows'⟩ := hlater.graph_extends.nodes id given hgiven
    have hnode := Graph.nodeAt_unique past.graph id grown node hgrown h
    have hother := Graph.nodeAt_unique later.graph id grown' other hgrown' h'
    subst grown grown'
    exact Or.inl ⟨hgrows'.name_eq.trans hgrows.name_eq.symm,
      hgrows'.operator_eq.trans hgrows.operator_eq.symm⟩
  · exact Or.inr hapart

theorem resolves (past later : Past) : past.Resolves later where
  variable_refused := variableAt_refused past later
  operator_refused := nodeAt_refused past later
  kept := Precedes.graph_extends
  variable_eq := variable_eq_or_apart past later
  operator_eq := operator_eq_or_apart past later

end Past

/-! The pasts of all graphs. -/

/-- The pasts of the graphs by name, and the number of creations so far. -/
structure Archive where
  pasts : NameMap Past
  creations : Nat

namespace Archive

def empty : Archive := ⟨∅, 0⟩

def step (archive : Archive) : Command → Archive
  | .create name => ⟨archive.pasts.insert name ⟨archive.creations, []⟩, archive.creations + 1⟩
  | .copy source target =>
    match archive.pasts.find? source with
    | some past => { archive with pasts := archive.pasts.insert target past }
    | none => archive
  | .perform name call =>
    match archive.pasts.find? name with
    | some past => { archive with pasts := archive.pasts.insert name (past.after call) }
    | none => archive

/-- The workspace with the graphs that these pasts lead to. -/
def workspace (archive : Archive) : Workspace :=
  ⟨archive.pasts.mapValues Past.graph, archive.creations⟩

theorem find?_workspace (archive : Archive) (name : String) :
    archive.workspace.graphs.find? name = (archive.pasts.find? name).map Past.graph :=
  NameMap.find?_mapValues Past.graph archive.pasts name

theorem workspace_step (archive : Archive) (command : Command) :
    (archive.step command).workspace = archive.workspace.step command := by
  cases command with
  | create name => exact congrArg (Workspace.mk · _) (NameMap.mapValues_insert _ _ _ _)
  | copy source target =>
    simp only [step, Workspace.step, Workspace.copy, find?_workspace]
    cases archive.pasts.find? source with
    | none => rfl
    | some past => exact congrArg (Workspace.mk · _) (NameMap.mapValues_insert _ _ _ _)
  | perform name call =>
    simp only [step, Workspace.step, Workspace.perform, find?_workspace]
    cases archive.pasts.find? name with
    | none => rfl
    | some past =>
      refine congrArg (Workspace.mk · _) ?_
      rw [NameMap.mapValues_insert, Past.graph_after]
      rfl

/-- The past of a graph after a command was its past before, or a creation, a copy or a call under
its name has made it. -/
theorem find?_step (archive : Archive) (command : Command) (name : String) (past : Past)
    (h : (archive.step command).pasts.find? name = some past) :
    archive.pasts.find? name = some past ∨
      (command = .create name ∧ past.creation = archive.creations) ∨
      (∃ source, command = .copy source name ∧ archive.pasts.find? source = some past) ∨
      ∃ earlier call, command = .perform name call ∧ archive.pasts.find? name = some earlier ∧
        past = earlier.after call := by
  cases command with
  | create created =>
    rcases archive.pasts.find?_insert_eq_some created name _ past h with hnew | hold
    · obtain ⟨rfl, rfl⟩ := hnew
      exact Or.inr (Or.inl ⟨rfl, rfl⟩)
    · exact Or.inl hold
  | copy source target =>
    cases hsource : archive.pasts.find? source with
    | none =>
      simp only [step, hsource] at h
      exact Or.inl h
    | some copied =>
      simp only [step, hsource] at h
      rcases archive.pasts.find?_insert_eq_some target name copied past h with hnew | hold
      · obtain ⟨rfl, rfl⟩ := hnew
        exact Or.inr (Or.inr (Or.inl ⟨source, rfl, hsource⟩))
      · exact Or.inl hold
  | perform called call =>
    cases hcalled : archive.pasts.find? called with
    | none =>
      simp only [step, hcalled] at h
      exact Or.inl h
    | some earlier =>
      simp only [step, hcalled] at h
      rcases archive.pasts.find?_insert_eq_some called name _ past h with hnew | hold
      · obtain ⟨rfl, rfl⟩ := hnew
        exact Or.inr (Or.inr (Or.inr ⟨earlier, call, rfl, hcalled, rfl⟩))
      · exact Or.inl hold

theorem creations_step (archive : Archive) (command : Command) :
    archive.creations ≤ (archive.step command).creations := by
  cases command with
  | create name => exact Nat.le_succ _
  | copy source target =>
    simp only [step]
    split <;> exact Nat.le_refl _
  | perform name call =>
    simp only [step]
    split <;> exact Nat.le_refl _

/-- Every past goes back to a creation that has taken place. -/
def Dated (archive : Archive) : Prop :=
  ∀ name past, archive.pasts.find? name = some past → past.creation < archive.creations

theorem dated_step (archive : Archive) (command : Command) (hdated : archive.Dated) :
    (archive.step command).Dated := by
  intro name past h
  have hle := archive.creations_step command
  rcases archive.find?_step command name past h with hold | hcreated | hcopied | hperformed
  · exact Nat.lt_of_lt_of_le (hdated name past hold) hle
  · obtain ⟨rfl, hcreation⟩ := hcreated
    rw [hcreation]
    exact Nat.lt_succ_self _
  · obtain ⟨source, -, hsource⟩ := hcopied
    exact Nat.lt_of_lt_of_le (hdated source past hsource) hle
  · obtain ⟨earlier, call, -, hearlier, rfl⟩ := hperformed
    exact Nat.lt_of_lt_of_le (hdated name earlier hearlier) hle

/-- The graphs of the second archive that go back to a creation in the first one are those of the
first one, under their names. -/
structure Continued (archive later : Archive) : Prop where
  creations_le : archive.creations ≤ later.creations
  exists_past : ∀ name past, later.pasts.find? name = some past →
    past.creation < archive.creations →
    ∃ earlier, archive.pasts.find? name = some earlier ∧ earlier.Precedes past

theorem Continued.refl (archive : Archive) : archive.Continued archive where
  creations_le := Nat.le_refl _
  exists_past _ past h _ := ⟨past, h, .refl past⟩

theorem Continued.trans {archive middle later : Archive} (h : archive.Continued middle)
    (h' : middle.Continued later) : archive.Continued later where
  creations_le := Nat.le_trans h.creations_le h'.creations_le
  exists_past name past hpast hcreation := by
    obtain ⟨between, hbetween, hprecedes⟩ :=
      h'.exists_past name past hpast (Nat.lt_of_lt_of_le hcreation h.creations_le)
    rw [hprecedes.creation_eq] at hcreation
    obtain ⟨earlier, hearlier, hprecedes'⟩ := h.exists_past name between hbetween hcreation
    exact ⟨earlier, hearlier, hprecedes'.trans hprecedes⟩

theorem continued_step (archive : Archive) (command : Command)
    (huncopied : ∀ source target, command ≠ .copy source target) :
    archive.Continued (archive.step command) where
  creations_le := archive.creations_step command
  exists_past name past h hcreation := by
    rcases archive.find?_step command name past h with hold | hcreated | hcopied | hperformed
    · exact ⟨past, hold, .refl past⟩
    · exact absurd hcreated.2 (Nat.ne_of_lt hcreation)
    · obtain ⟨source, hcommand, -⟩ := hcopied
      exact absurd hcommand (huncopied source name)
    · obtain ⟨earlier, call, -, hearlier, rfl⟩ := hperformed
      exact ⟨earlier, hearlier, .after earlier call⟩

/-- A past that goes back to no earlier creation belongs to the graph that the command creates. -/
theorem create_of_step (archive : Archive) (command : Command)
    (huncopied : ∀ source target, command ≠ .copy source target) (hdated : archive.Dated)
    (name : String) (past : Past) (h : (archive.step command).pasts.find? name = some past)
    (hnew : ¬ past.creation < archive.creations) : command = .create name := by
  rcases archive.find?_step command name past h with hold | hcreated | hcopied | hperformed
  · exact absurd (hdated name past hold) hnew
  · exact hcreated.1
  · obtain ⟨source, hcommand, -⟩ := hcopied
    exact absurd hcommand (huncopied source name)
  · obtain ⟨earlier, call, -, hearlier, rfl⟩ := hperformed
    exact absurd (hdated name earlier hearlier) hnew

/-- No two graphs go back to the same creation. -/
def Separate (archive : Archive) : Prop :=
  ∀ name other past past', archive.pasts.find? name = some past →
    archive.pasts.find? other = some past' → past'.creation = past.creation → other = name

theorem separate_step (archive : Archive) (command : Command)
    (huncopied : ∀ source target, command ≠ .copy source target) (hdated : archive.Dated)
    (hseparate : archive.Separate) : (archive.step command).Separate := by
  intro name other past past' h h' hcreation
  by_cases hold : past.creation < archive.creations
  · have hcontinued := archive.continued_step command huncopied
    obtain ⟨earlier, hearlier, hprecedes⟩ := hcontinued.exists_past name past h hold
    obtain ⟨earlier', hearlier', hprecedes'⟩ :=
      hcontinued.exists_past other past' h' (hcreation ▸ hold)
    refine hseparate name other earlier earlier' hearlier hearlier' ?_
    rw [← hprecedes.creation_eq, ← hprecedes'.creation_eq, hcreation]
  · have hname := archive.create_of_step command huncopied hdated name past h hold
    have hother := archive.create_of_step command huncopied hdated other past' h' (hcreation ▸ hold)
    exact Command.create.inj (hother.symm.trans hname)

end Archive

/-- The pasts after a list of commands. -/
def archive (commands : List Command) : Archive := commands.foldl Archive.step .empty

theorem archive_concat (commands : List Command) (command : Command) :
    archive (commands ++ [command]) = (archive commands).step command := by
  simp only [archive, List.foldl_append, List.foldl_cons, List.foldl_nil]

theorem workspace_archive (commands : List Command) :
    (archive commands).workspace = run commands := by
  induction commands using List.reverseRecOn with
  | nil => rfl
  | append_singleton commands command ih =>
    rw [archive_concat, Archive.workspace_step, ih]
    simp only [run, List.foldl_append, List.foldl_cons, List.foldl_nil]

theorem dated_archive (commands : List Command) : (archive commands).Dated := by
  induction commands using List.reverseRecOn with
  | nil =>
    intro name past h
    cases h
  | append_singleton commands command ih =>
    rw [archive_concat]
    exact Archive.dated_step _ command ih

/-- No graph has been copied. -/
def Uncopied (commands : List Command) : Prop :=
  ∀ source target, Command.copy source target ∉ commands

theorem uncopied_concat (commands : List Command) (command : Command) :
    Uncopied (commands ++ [command]) ↔
      Uncopied commands ∧ ∀ source target, command ≠ .copy source target := by
  simp only [Uncopied, List.mem_append, List.mem_singleton, not_or, forall_and, ne_comm]

theorem continued_archive (before since : List Command) (huncopied : Uncopied (before ++ since)) :
    (archive before).Continued (archive (before ++ since)) := by
  induction since using List.reverseRecOn with
  | nil =>
    rw [List.append_nil]
    exact .refl _
  | append_singleton since command ih =>
    rw [← List.append_assoc, uncopied_concat] at huncopied
    rw [← List.append_assoc, archive_concat]
    exact (ih huncopied.1).trans (Archive.continued_step _ command huncopied.2)

theorem separate_archive (commands : List Command) (huncopied : Uncopied commands) :
    (archive commands).Separate := by
  induction commands using List.reverseRecOn with
  | nil =>
    intro name other past past' h
    cases h
  | append_singleton commands command ih =>
    rw [uncopied_concat] at huncopied
    rw [archive_concat]
    exact Archive.separate_step _ command huncopied.2 (dated_archive commands) (ih huncopied.1)

/-- Every graph of a workspace has a past. -/
theorem find?_run (commands : List Command) (name : String) :
    (run commands).graphs.find? name = ((archive commands).pasts.find? name).map Past.graph := by
  rw [← workspace_archive, Archive.find?_workspace]

theorem nextSerial_run (commands : List Command) :
    (run commands).nextSerial = (archive commands).creations := by
  rw [← workspace_archive]
  rfl

/-- As long as no graph is copied, only a later state of a graph goes back to its creation. -/
theorem precedes_of_uncopied (before since : List Command) (source target : String)
    (past later : Past) (hpast : (archive before).pasts.find? source = some past)
    (hlater : (archive (before ++ since)).pasts.find? target = some later)
    (huncopied : Uncopied (before ++ since)) (hcreation : later.creation = past.creation) :
    past.Precedes later := by
  have hcontinued := continued_archive before since huncopied
  have hseparate : (archive before).Separate := by
    refine separate_archive before ?_
    intro copied copy hmem
    exact huncopied copied copy (List.mem_append_left _ hmem)
  have hdate := dated_archive before source past hpast
  obtain ⟨earlier, hearlier, hprecedes⟩ :=
    hcontinued.exists_past target later hlater (hcreation ▸ hdate)
  have hearly : earlier.creation = past.creation := hprecedes.creation_eq.symm.trans hcreation
  have htarget := hseparate source target past earlier hpast hearlier hearly
  subst target
  rw [hpast] at hearlier
  cases hearlier
  exact hprecedes

/-- The first graph stands under its name after the first commands, the second one after all of
them, and these are their pasts. Every handle that a call on the first graph hands out is known to
it then, and what the handles that it knows are to the second graph depends on the two pasts. -/
structure Related (before since : List Command) (source target : String) (issuer own : Graph)
    (past later : Past) : Prop where
  find_past : (archive before).pasts.find? source = some past
  issuer_eq : issuer = past.graph
  find_later : (archive (before ++ since)).pasts.find? target = some later
  own_eq : own = later.graph
  created : past.creation < (run before).nextSerial
  handed_out : ∀ call answer, (issuer.perform call).answer = .ok answer →
    answer.Known (issuer.perform call).graph
  resolves : past.Resolves later
  uncopied : Uncopied (before ++ since) → later.creation = past.creation → past.Precedes later

/-- What the handles of a graph are to the graphs that there are then or later. A graph of another
creation refuses them. A later state of the graph keeps them, and so does a copy taken since. A
graph that resolves one of them to something else goes back to the same creation but has parted from
the first one before either handed it out; without copies there is no such graph. -/
theorem handles_of_run (before since : List Command) (source target : String) (issuer own : Graph)
    (hissuer : (run before).graphs.find? source = some issuer)
    (hown : (run (before ++ since)).graphs.find? target = some own) :
    ∃ past later, Related before since source target issuer own past later := by
  rw [find?_run] at hissuer hown
  obtain ⟨past, hpast, rfl⟩ := Option.map_eq_some_iff.mp hissuer
  obtain ⟨later, hlater, rfl⟩ := Option.map_eq_some_iff.mp hown
  have hcreated := dated_archive before source past hpast
  rw [← nextSerial_run] at hcreated
  exact ⟨past, later, hpast, rfl, hlater, rfl, hcreated, past.graph.known_perform,
    past.resolves later, precedes_of_uncopied before since source target past later hpast hlater⟩

def short : Tensor := Graph.strip 2

def long : Tensor := Graph.strip 3

/-- A graph that is copied while it is still empty. -/
def forked : List Command := [.create "main", .copy "main" "fork"]

/-- The graph gets an input that its copy does not get. -/
def parted : List Command := forked ++ [.perform "main" (.addInput short)]

/-- The copy gets an input of its own, under the same handle. -/
theorem handles_of_run_parted :
    (run parted).graphs.find? "main" = some ((Graph.new ⟨0⟩).addInput short).2 ∧
      (run (parted ++ [.perform "fork" (.addInput long)])).graphs.find? "fork" =
        some ((Graph.new ⟨0⟩).addInput long).2 ∧
      ∃ past later, Related parted [.perform "fork" (.addInput long)] "main" "fork"
        ((Graph.new ⟨0⟩).addInput short).2 ((Graph.new ⟨0⟩).addInput long).2 past later := by
  have hissuer : (run parted).graphs.find? "main" =
      some ((Graph.new ⟨0⟩).addInput short).2 := rfl
  have hown : (run (parted ++ [.perform "fork" (.addInput long)])).graphs.find? "fork" =
      some ((Graph.new ⟨0⟩).addInput long).2 := rfl
  exact ⟨hissuer, hown, handles_of_run parted _ "main" "fork" _ _ hissuer hown⟩

/-- A copy can resolve a handle that another copy has handed out since to something else. -/
theorem handle_mixed_up :
    ¬ ∀ (before since : List Command) (source target : String) (call : Graph.Call)
        (outcome : Outcome Graph.Answer) (next : Workspace) (ids : List VariableId)
        (v : VariableId) (own : Graph) (found other : Variable),
      (run before).perform source call = some (outcome, next) →
      outcome.answer = .ok (.vars ids) → v ∈ ids → outcome.graph.variableAt v = .ok found →
      (run (before ++ .perform source call :: since)).graphs.find? target = some own →
      own.variableAt v = .ok other → other = found := by
  intro h
  have hsame : (⟨long, none⟩ : Variable) = ⟨short, none⟩ :=
    h forked [.perform "fork" (.addInput long)] "main" "fork" (.addInput short) _ _
      [⟨⟨0⟩, 0⟩] ⟨⟨0⟩, 0⟩ ((Graph.new ⟨0⟩).addInput long).2 _ _ rfl rfl (List.mem_singleton.mpr rfl)
      rfl rfl rfl
  exact absurd hsame (by decide)

end Workspace

end AxisGraph
