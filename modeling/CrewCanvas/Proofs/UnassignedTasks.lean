/-
Tasks without an agent.

The entry of such a task names `None` as its agent, and `None` is no reserved name.  So the entry
names the key of an agent after all if `None` is the identifier of an agent, and it is exactly if
the first agent or task of that name is an agent.  Otherwise the entries of the tasks tell which
tasks have an agent.
-/

import CrewCanvas.Proofs.CrossReferences
import CrewCanvas.Proofs.FreeNames

namespace CrewCanvas

/-! ### Names that are given as they are typed -/

namespace Identifiers

/-- A name that is an identifier only where it was typed: nothing else is sanitized to it, and it
is neither the name of a kind nor one with a suffix. -/
structure Verbatim (name : String) : Prop where
  unbroken : Unbroken name
  noMark : '_' ∉ name.toList
  notEmpty : name ≠ ""
  notKind : ∀ kind : NodeKind, name ≠ kind.name

theorem verbatim_noAgent : Verbatim noAgent where
  unbroken := by decide
  noMark := by decide
  notEmpty := by decide
  notKind := by
    intro kind
    cases kind <;> decide

section Verbatim

variable {name : String} (verbatim : Verbatim name)

include verbatim

theorem sanitize_eq_iff {text : String} : Text.sanitize text = name ↔ text = name := by
  rw [← String.toList_inj, ← String.toList_inj, Text.toList_sanitize]
  constructor
  · intro same
    have noMark : '_' ∉ Text.underscoreRuns false text.toList := same ▸ verbatim.noMark
    rw [← same, Text.underscoreRuns_of_noMark noMark]
  · intro same
    rw [same, Text.underscoreRuns_of_unblank verbatim.unbroken]

theorem base_eq_iff {kind : NodeKind} {text : String} : base kind text = name ↔ text = name := by
  unfold base
  simp only
  split
  · rename_i empty
    constructor
    · intro isKind
      exact absurd isKind.symm (verbatim.notKind kind)
    · intro same
      have isEmpty : Text.sanitize text = "" := by simpa using empty
      rw [(sanitize_eq_iff verbatim).mpr same] at isEmpty
      exact absurd isEmpty verbatim.notEmpty
  · exact sanitize_eq_iff verbatim

theorem firstFree_eq_iff {taken : List String} {base : String} (free : name ∉ taken) :
    firstFree taken base = name ↔ base = name := by
  rcases firstFree_cases taken base with ⟨_, same⟩ | ⟨isTaken, found⟩
  · rw [same]
  · obtain ⟨step, _, suffix⟩ := List.mem_map.mp (List.mem_of_find?_eq_some found)
    constructor
    · intro same
      have mark : '_' ∈ (suffixed base (step + 2)).toList := by simp [suffixed]
      rw [suffix, same] at mark
      exact absurd mark verbatim.noMark
    · intro same
      exact absurd (same ▸ isTaken) free

/-- A free name goes to the first node that has it. -/
theorem find?_assign {taken : List String} (free : name ∉ taken) (nodes : List Node) :
    ((assign taken nodes).find? (fun entry => entry.2 = name)).map Prod.fst =
      (nodes.find? (fun node => node.name? = some name)).map Node.id := by
  induction nodes generalizing taken with
  | nil => rfl
  | cons node rest ih =>
      rw [assign]
      cases named : node.name? with
      | none => simp [named, ih free]
      | some text =>
          by_cases same : text = name
          · have given : firstFree taken (base node.kind text) = name :=
              (firstFree_eq_iff verbatim free).mpr ((base_eq_iff verbatim).mpr same)
            simp [named, same ▸ given, same]
          · have other : firstFree taken (base node.kind text) ≠ name := by
              rw [ne_eq, firstFree_eq_iff verbatim free, base_eq_iff verbatim]
              exact same
            have stillFree : name ∉ firstFree taken (base node.kind text) :: taken := by
              simp [other.symm, free]
            simp [named, same, other, ih stillFree]

end Verbatim

end Identifiers

namespace Graph

open Identifiers (resolve reserved Verbatim)

variable {graph : Graph}

def firstNamed? (graph : Graph) (name : String) : Option Node :=
  graph.nodes.find? (fun node => node.name? = some name)

theorem entry_of_node (unique : graph.UniqueNodes) {node : Node} (member : node ∈ graph.nodes)
    (named : node.name?.isSome = true) :
    (node.id, (resolve graph).of node) ∈ (resolve graph).entries := by
  have given : ((resolve graph).get? node.id).isSome = true := by
    rw [(givenInOrder unique).givenIff]
    exact ⟨node, member, rfl, isSome_name?_iff.mp named⟩
  obtain ⟨name, isName⟩ := Option.isSome_iff_exists.mp given
  apply Identifiers.mem_of_get?
  rw [Identifiers.of, isName, Option.getD_some]

/-- A name that is no reserved one belongs to the first agent or task that it was typed for. -/
theorem of_eq_iff (unique : graph.UniqueNodes) {name : String} (verbatim : Verbatim name)
    (free : name ∉ reserved) {node : Node} (member : node ∈ graph.nodes)
    (named : node.name?.isSome = true) :
    (resolve graph).of node = name ↔ graph.firstNamed? name = some node := by
  have first : ((resolve graph).entries.find? (fun entry => entry.2 = name)).map Prod.fst =
      (graph.firstNamed? name).map Node.id := Identifiers.find?_assign verbatim free graph.nodes
  have entry := entry_of_node unique member named
  have distinct := (Identifiers.assign_apart reserved graph.nodes).1
  constructor
  · intro same
    rw [same] at entry
    have found : (resolve graph).entries.find? (fun entry => entry.2 = name) =
        some (node.id, name) := by
      obtain ⟨front, back, parts⟩ := List.append_of_mem entry
      rw [parts]
      exact find?_others (others_of_nodup distinct parts)
    rw [found, Option.map_some] at first
    obtain ⟨other, isFirst, sameId⟩ := Option.map_eq_some_iff.mp first.symm
    have present := List.mem_of_find?_eq_some isFirst
    rw [isFirst, List.inj_on_of_nodup_map unique present member sameId]
  · intro isFirst
    rw [isFirst, Option.map_some] at first
    obtain ⟨⟨id, given⟩, found, sameId⟩ := Option.map_eq_some_iff.mp first
    have isName : given = name := by simpa using List.find?_some found
    have known := Identifiers.get?_of_mem (entryIds_nodup unique) (List.mem_of_find?_eq_some found)
    rw [Identifiers.of, ← sameId, known, isName, Option.getD_some]

/-! ### The agent that the entry of a task names -/

def agentKeys (graph : Graph) : List String := (graph.agentsDocument (resolve graph)).map Prod.fst

def renderedAgent? (graph : Graph) (task : Node) : Option String :=
  ((graph.tasksDocument (resolve graph)).lookup ((resolve graph).of task)).bind
    (fun fields => fields.lookup "agent")

/-- Whether the documents tell if a task has an agent: what is said about its agent is a key of
the agents document exactly if it has one. -/
def ToldApart (graph : Graph) (task : Node) : Prop :=
  ∃ value, graph.renderedAgent? task = some value ∧
    (value ∈ graph.agentKeys ↔ (graph.agentFor? task.id).isSome = true)

theorem agentKeys_eq (unique : graph.UniqueNodes) :
    graph.agentKeys = graph.agents.map (resolve graph).of := by
  rw [agentKeys, agentsDocument_eq unique, agentEntries_keys]

theorem renderedAgent?_eq (unique : graph.UniqueNodes) {task : Node} (isTask : task ∈ graph.tasks) :
    graph.renderedAgent? task = some (graph.agentName (resolve graph) task.id) := by
  obtain ⟨data, _, entry⟩ := lookup_taskEntries unique isTask
  rw [renderedAgent?, tasksDocument_eq unique, entry]
  rfl

theorem noAgent_mem_agentKeys_iff (unique : graph.UniqueNodes) :
    noAgent ∈ graph.agentKeys ↔
      ∃ agent, graph.firstNamed? noAgent = some agent ∧ agent.kind = .agent := by
  have owner {agent : Node} (member : agent ∈ graph.nodes) (kind : agent.kind = .agent) :=
    of_eq_iff unique Identifiers.verbatim_noAgent (by decide) member
      (isSome_name?_iff.mpr (Or.inl kind))
  rw [agentKeys_eq unique, List.mem_map]
  constructor
  · intro given
    obtain ⟨agent, isAgent, same⟩ := given
    obtain ⟨member, kind⟩ := mem_agents_iff.mp isAgent
    exact ⟨agent, (owner member kind).mp same, kind⟩
  · intro isFirst
    obtain ⟨agent, first, kind⟩ := isFirst
    have member := List.mem_of_find?_eq_some first
    exact ⟨agent, mem_agents_iff.mpr ⟨member, kind⟩, (owner member kind).mpr first⟩

/-- The documents tell whether a task has an agent, unless it has none and the first agent or task
with the name for no agent is an agent. -/
theorem toldApart_iff (unique : graph.UniqueNodes) {task : Node} (isTask : task ∈ graph.tasks) :
    graph.ToldApart task ↔ (graph.agentFor? task.id).isSome = true ∨
      ¬∃ agent, graph.firstNamed? noAgent = some agent ∧ agent.kind = .agent := by
  unfold ToldApart
  rw [← noAgent_mem_agentKeys_iff unique, renderedAgent?_eq unique isTask]
  simp only [Option.some.injEq, exists_eq_left']
  cases assigned : graph.agentFor? task.id with
  | none => simp [agentName, assigned]
  | some agent =>
      have isKey : (resolve graph).of agent ∈ graph.agentKeys := by
        rw [agentKeys_eq unique]
        exact List.mem_map_of_mem (agents_of_agentFor? assigned)
      simp [agentName_of_agentFor? assigned, isKey]

def noneTwice : Graph where
  nodes :=
    [Node.plain .begin "s", { id := "t", data := .task { name := "None" } },
      { id := "w", data := .agent { name := "None" } }, { id := "u", data := .task { name := "" } }]
  edges := [⟨"e1", "w", some .agentOut, "u", some .agent, false⟩]

/-- The task was there before the agent, so that the agent has another key. -/
theorem noneTwice_toldApart :
    noneTwice.UniqueNodes ∧ noneTwice.agentKeys = ["None_2"] ∧
      noneTwice.tasks.map (fun task => (noneTwice.agentFor? task.id).map Node.id) =
        [none, some "w"] ∧
      ∀ task ∈ noneTwice.tasks, noneTwice.ToldApart task := by
  have unique : noneTwice.UniqueNodes := by decide
  refine ⟨unique, by decide +kernel, by cbv, ?_⟩
  intro task isTask
  have noAgentFirst : ¬∃ agent, noneTwice.firstNamed? noAgent = some agent ∧
      agent.kind = .agent := by decide
  exact (toldApart_iff unique isTask).mpr (Or.inr noAgentFirst)

def agentNamedNone : Graph where
  nodes := [{ id := "w", data := .agent { name := "None" } }, Node.plain .task "t"]

/-- The entry of the task names the key of the agent. -/
theorem agentNamedNone_not_toldApart :
    agentNamedNone.UniqueNodes ∧ Node.plain .task "t" ∈ agentNamedNone.tasks ∧
      agentNamedNone.agentFor? (Node.plain .task "t").id = none ∧
      agentNamedNone.agentKeys = ["None"] ∧
      agentNamedNone.renderedAgent? (Node.plain .task "t") = some "None" ∧
      ¬agentNamedNone.ToldApart (Node.plain .task "t") := by
  have unique : agentNamedNone.UniqueNodes := by decide
  have isTask : Node.plain .task "t" ∈ agentNamedNone.tasks := by decide
  have unassigned : agentNamedNone.agentFor? (Node.plain .task "t").id = none := by cbv
  have keys : agentNamedNone.agentKeys = ["None"] := by decide +kernel
  have rendered : agentNamedNone.renderedAgent? (Node.plain .task "t") = some "None" := by
    rw [renderedAgent?_eq unique isTask, agentName, unassigned]
    rfl
  refine ⟨unique, isTask, unassigned, keys, rendered, ?_⟩
  rintro ⟨value, isRendered, isKey⟩
  rw [rendered, Option.some.injEq] at isRendered
  rw [keys, unassigned, ← isRendered] at isKey
  simp at isKey

end Graph

end CrewCanvas
