/-
Splitting edges and the compiled artifacts.

A reroute has no name, so it takes no identifier.  With the same tasks, agents, task
order, predecessors and assigned agents both artifacts come out the same, after one
split and after any run of splits.
-/

import CrewCanvas.Proofs.SplitFeeders
import CrewCanvas.Artifact.Declarative
import CrewCanvas.Artifact.Scaffold

namespace CrewCanvas

/-! ### Identifiers -/

theorem Identifiers.assign_append_unnamed {node : Node} (unnamed : node.name? = none)
    (taken : List String) (nodes : List Node) :
    assign taken (nodes ++ [node]) = assign taken nodes := by
  induction nodes generalizing taken with
  | nil => simp [assign, unnamed]
  | cons first rest ih =>
      rw [List.cons_append, assign, assign]
      cases first.name? with
      | none => exact ih taken
      | some name => simp only [ih]

theorem Node.name?_of_reroute {node : Node} (kind : node.kind = .reroute) : node.name? = none := by
  obtain ⟨id, position, data⟩ := node
  cases data with
  | reroute claimed => rfl
  | begin => cases kind
  | agent data => cases kind
  | task data => cases kind

namespace Graph

/-! ### What the artifacts read -/

/-- Two graphs are the same crew: whatever lies between the tasks and the agents, the
order of the tasks, what feeds them and both artifacts agree. -/
structure SameCrew (graph other : Graph) : Prop where
  tasks : other.tasks = graph.tasks
  sequence : other.sequence = graph.sequence
  predecessors : ∀ task ∈ graph.tasks, other.predecessors task.id = graph.predecessors task.id
  agentFor : ∀ task ∈ graph.tasks, other.agentFor? task.id = graph.agentFor? task.id
  declarative : ∀ settings, other.declarative settings = graph.declarative settings
  scaffold : ∀ settings, other.scaffold settings = graph.scaffold settings

namespace SameCrew

theorem refl (graph : Graph) : SameCrew graph graph where
  tasks := rfl
  sequence := rfl
  predecessors := fun _ _ => rfl
  agentFor := fun _ _ => rfl
  declarative := fun _ => rfl
  scaffold := fun _ => rfl

theorem trans {graph next last : Graph} (first : SameCrew graph next)
    (second : SameCrew next last) : SameCrew graph last where
  tasks := second.tasks.trans first.tasks
  sequence := second.sequence.trans first.sequence
  predecessors := by
    intro task member
    rw [second.predecessors task (first.tasks ▸ member), first.predecessors task member]
  agentFor := by
    intro task member
    rw [second.agentFor task (first.tasks ▸ member), first.agentFor task member]
  declarative := fun settings => (second.declarative settings).trans (first.declarative settings)
  scaffold := fun settings => (second.scaffold settings).trans (first.scaffold settings)

end SameCrew

theorem declarative_congr {graph other : Graph} (agents : other.agents = graph.agents)
    (tasks : other.tasks = graph.tasks)
    (identifiers : Identifiers.resolve other = Identifiers.resolve graph)
    (agentFor : ∀ task ∈ graph.tasks, other.agentFor? task.id = graph.agentFor? task.id)
    (settings : CompileSettings) : other.declarative settings = graph.declarative settings := by
  have agentEntries (given : Identifiers) : other.agentEntries given = graph.agentEntries given := by
    unfold Graph.agentEntries
    rw [agents]
  have taskEntries (given : Identifiers) : other.taskEntries given = graph.taskEntries given := by
    unfold Graph.taskEntries
    rw [tasks]
    apply List.filterMap_congr
    intro task member
    unfold agentName
    rw [agentFor task member]
  unfold declarative agentsDocument tasksDocument
  simp only [identifiers, agentEntries, taskEntries]

theorem scaffold_congr {graph other : Graph} (agents : other.agents = graph.agents)
    (ordered : Scaffold.sequencedTasks other = Scaffold.sequencedTasks graph)
    (identifiers : Identifiers.resolve other = Identifiers.resolve graph)
    (predecessors : ∀ task ∈ Scaffold.sequencedTasks graph,
      other.predecessors task.id = graph.predecessors task.id)
    (settings : CompileSettings) : other.scaffold settings = graph.scaffold settings := by
  have tools : Scaffold.importedTools other = Scaffold.importedTools graph := by
    unfold Scaffold.importedTools
    rw [agents]
  have taskLines (given : Identifiers) : (Scaffold.sequencedTasks graph).flatMap (fun node =>
      Scaffold.taskLines (given.of node) ((other.predecessors node.id).map given.of)) =
      (Scaffold.sequencedTasks graph).flatMap (fun node =>
        Scaffold.taskLines (given.of node) ((graph.predecessors node.id).map given.of)) := by
    apply List.flatMap_congr
    intro task member
    rw [predecessors task member]
  unfold scaffold Scaffold.lines
  simp only [identifiers, tools, agents, ordered, taskLines]

theorem task_of_mem_sequence {graph : Graph} (unique : graph.UniqueNodes) {id : NodeId}
    (member : id ∈ graph.sequence) : ∃ task ∈ graph.tasks, graph.node? id = some task := by
  obtain ⟨task, inTasks, same⟩ := List.mem_map.mp ((mem_sequence_iff unique).mp member)
  subst same
  exact ⟨task, inTasks, node?_of_mem unique (mem_tasks_iff.mp inTasks).1⟩

/-! ### One split -/

namespace Subdivision

variable {graph next : Graph} {given : Node}

theorem identifiers_eq (parts : Subdivision graph next given) :
    Identifiers.resolve next = Identifiers.resolve graph := by
  unfold Identifiers.resolve
  rw [parts.nextNodes,
    Identifiers.assign_append_unnamed (Node.name?_of_reroute parts.kind)]

theorem sequencedTasks_eq (parts : Subdivision graph next given) (unique : graph.UniqueNodes)
    (sequence : next.sequence = graph.sequence) :
    Scaffold.sequencedTasks next = Scaffold.sequencedTasks graph := by
  unfold Scaffold.sequencedTasks
  rw [sequence]
  apply List.filterMap_congr
  intro id member
  obtain ⟨task, _, found⟩ := task_of_mem_sequence unique member
  rw [found]
  exact parts.node?_of_some found

theorem sameCrew (parts : Subdivision graph next given) (unique : graph.UniqueNodes)
    (ends : graph.EndsPresent) (named : graph.TaskOutputsNamed)
    (unclaimed : given.claimed? = none) : SameCrew graph next := by
  have sequence := parts.sequence_eq unique ends named unclaimed
  have isTask : ∀ task ∈ graph.tasks,
      graph.node? task.id = some task ∧ task.kind ≠ .reroute := by
    intro task member
    obtain ⟨present, kind⟩ := mem_tasks_iff.mp member
    exact ⟨node?_of_mem unique present, by simp [kind]⟩
  have predecessors : ∀ task ∈ graph.tasks,
      next.predecessors task.id = graph.predecessors task.id := by
    intro task member
    obtain ⟨found, kind⟩ := isTask task member
    exact parts.predecessors_eq ends named unclaimed found kind
  have agentFor : ∀ task ∈ graph.tasks, next.agentFor? task.id = graph.agentFor? task.id := by
    intro task member
    obtain ⟨found, kind⟩ := isTask task member
    exact parts.agentFor?_eq ends named unclaimed found kind
  have ordered : ∀ task ∈ Scaffold.sequencedTasks graph, task ∈ graph.tasks := by
    intro task member
    obtain ⟨id, inOrder, found⟩ := List.mem_filterMap.mp member
    obtain ⟨other, inTasks, same⟩ := task_of_mem_sequence unique inOrder
    rw [found] at same
    cases same
    exact inTasks
  refine ⟨parts.tasks_eq, sequence, predecessors, agentFor, ?_, ?_⟩
  · exact declarative_congr parts.agents_eq parts.tasks_eq parts.identifiers_eq agentFor
  · exact scaffold_congr parts.agents_eq (parts.sequencedTasks_eq unique sequence)
      parts.identifiers_eq (fun task member => predecessors task (ordered task member))

end Subdivision

/-! ### Runs of splits -/

/-- Splits, one after the other, each of an edge of the graph made so far and with a
reroute that is not claimed yet. -/
inductive SplitRun : Graph → Graph → Prop
  | done (graph : Graph) : SplitRun graph graph
  | step {graph next last : Graph} (id : EdgeId) (reroute : Node) (tailId : EdgeId) :
      graph.splitEdge id reroute tailId = .ok next → reroute.claimed? = none →
        SplitRun next last → SplitRun graph last

/-- No run of splits changes the order of the tasks, what feeds a task or an artifact. -/
theorem sameCrew_of_splitRun {graph last : Graph} (unique : graph.UniqueNodes)
    (ends : graph.EndsPresent) (named : graph.TaskOutputsNamed) (run : SplitRun graph last) :
    SameCrew graph last := by
  induction run with
  | done graph => exact SameCrew.refl graph
  | step id reroute tailId split unclaimed _ ih =>
      obtain ⟨parts, _⟩ := splitEdge_subdivision split
      have first := parts.sameCrew unique ends named unclaimed
      have rest := ih (parts.uniqueNodes unique) (parts.endsPresent ends)
        (parts.taskOutputsNamed ends named)
      exact first.trans rest

def splitLoopGraph : Graph :=
  { nodes := loopGraph.nodes ++
      [{ id := "m", data := .reroute (some .execution) },
        { id := "n", data := .reroute (some .execution) }]
    edges :=
      [⟨"e1", "s", some .execOut, "m", none, false⟩, ⟨"f1", "m", none, "n", none, false⟩,
        ⟨"f2", "n", none, "r", none, false⟩] ++ loopGraph.edges.tail }

theorem sameCrew_splitLoopGraph :
    loopGraph.UniqueNodes ∧ loopGraph.EndsPresent ∧ loopGraph.TaskOutputsNamed ∧
      SplitRun loopGraph splitLoopGraph ∧ SameCrew loopGraph splitLoopGraph := by
  have unique : loopGraph.UniqueNodes := by decide
  have ends : loopGraph.EndsPresent := by decide
  have named : loopGraph.TaskOutputsNamed := by decide
  have run : SplitRun loopGraph splitLoopGraph :=
    SplitRun.step "e1" (Node.plain .reroute "m") "f1" rfl rfl
      (SplitRun.step "f1" (Node.plain .reroute "n") "f2" rfl rfl (SplitRun.done splitLoopGraph))
  exact ⟨unique, ends, named, run, sameCrew_of_splitRun unique ends named run⟩

end Graph

end CrewCanvas
