/-
The artifacts refer to each other.

Both documents and the scaffold name agents and tasks by the identifiers of the graph.  No
two of them are equal, so no entry replaces another and no factory hides another.  The task
sequence is an order of all tasks, so each task that is called as a context is defined.  The
scaffold is read from its text, and a reader that reads documents back gets both documents from
theirs.
-/

import CrewCanvas.Artifact.Declarative
import CrewCanvas.Proofs.DocumentReading
import CrewCanvas.Proofs.ScaffoldText
import CrewCanvas.Proofs.SplitArtifacts

namespace CrewCanvas

open Identifiers (resolve)
open Scaffold (Factory)

/-! ### Entries -/

theorem Yaml.Document.set_of_notMem {key : String} {fields : Yaml.Fields}
    {document : Yaml.Document} (fresh : key ∉ document.map Prod.fst) :
    Yaml.Document.set key fields document = document ++ [(key, fields)] := by
  induction document with
  | nil => rfl
  | cons entry rest ih =>
      rw [List.map_cons, List.mem_cons, not_or] at fresh
      rw [Yaml.Document.set, if_neg (fun same => fresh.1 same.symm), ih fresh.2]
      rfl

/-- Entries with different keys are all kept, in their order. -/
theorem Yaml.ofEntries_of_nodup {entries : List (String × Yaml.Fields)}
    (unique : (entries.map Prod.fst).Nodup) : Yaml.ofEntries entries = entries := by
  -- The induction runs from any entries that are there already.
  suffices kept : ∀ document : Yaml.Document, ((document ++ entries).map Prod.fst).Nodup →
      entries.foldl (fun document entry => Yaml.Document.set entry.1 entry.2 document) document =
        document ++ entries by
    exact kept [] unique
  clear unique
  induction entries with
  | nil =>
      intro document _
      rw [List.append_nil]
      rfl
  | cons entry rest ih =>
      intro document unique
      have shifted : document ++ entry :: rest = (document ++ [entry]) ++ rest := by simp
      have fresh : entry.1 ∉ document.map Prod.fst := by
        rw [List.map_append, List.map_cons, List.nodup_append] at unique
        intro known
        exact unique.2.2 entry.1 known entry.1 List.mem_cons_self rfl
      rw [shifted] at unique ⊢
      rw [List.foldl_cons, Yaml.Document.set_of_notMem fresh]
      exact ih _ unique

namespace Graph

def IsAgentEntry (graph : Graph) (node : Node) (entry : String × Yaml.Fields) : Prop :=
  ∃ data, node.agent? = some data ∧ entry = ((resolve graph).of node, data.fields)

def IsTaskEntry (graph : Graph) (node : Node) (entry : String × Yaml.Fields) : Prop :=
  ∃ data, node.task? = some data ∧
    entry = ((resolve graph).of node, data.fields (graph.agentName (resolve graph) node.id))

variable {graph : Graph}

theorem agentEntries_forall₂ (graph : Graph) :
    List.Forall₂ graph.IsAgentEntry graph.agents (graph.agentEntries (resolve graph)) := by
  apply forall₂_filterMap
  intro node member
  obtain ⟨data, found⟩ := Node.exists_agent (mem_agents_iff.mp member).2
  refine ⟨((resolve graph).of node, data.fields), ?_, data, found, rfl⟩
  rw [found]
  rfl

theorem taskEntries_forall₂ (graph : Graph) :
    List.Forall₂ graph.IsTaskEntry graph.tasks (graph.taskEntries (resolve graph)) := by
  apply forall₂_filterMap
  intro node member
  obtain ⟨data, found⟩ := Node.exists_task (mem_tasks_iff.mp member).2
  refine ⟨((resolve graph).of node, data.fields (graph.agentName (resolve graph) node.id)), ?_,
    data, found, rfl⟩
  rw [found]
  rfl

theorem agentEntries_keys (graph : Graph) :
    (graph.agentEntries (resolve graph)).map Prod.fst = graph.agents.map (resolve graph).of := by
  symm
  apply map_eq_map_of_forall₂ graph.agentEntries_forall₂
  intro node entry isEntry
  obtain ⟨data, _, same⟩ := isEntry
  rw [same]

theorem taskEntries_keys (graph : Graph) :
    (graph.taskEntries (resolve graph)).map Prod.fst = graph.tasks.map (resolve graph).of := by
  symm
  apply map_eq_map_of_forall₂ graph.taskEntries_forall₂
  intro node entry isEntry
  obtain ⟨data, _, same⟩ := isEntry
  rw [same]

theorem agentEntries_names (graph : Graph) :
    ∀ entry ∈ graph.agentEntries (resolve graph),
      entry.2.map Prod.fst = ["role", "goal", "backstory"] := by
  intro entry member
  obtain ⟨node, _, isEntry⟩ := List.mem_filterMap.mp member
  obtain ⟨data, _, same⟩ := Option.map_eq_some_iff.mp isEntry
  rw [← same]
  rfl

theorem taskEntries_names (graph : Graph) :
    ∀ entry ∈ graph.taskEntries (resolve graph),
      entry.2.map Prod.fst = ["description", "expected_output", "agent"] := by
  intro entry member
  obtain ⟨node, _, isEntry⟩ := List.mem_filterMap.mp member
  obtain ⟨data, _, same⟩ := Option.map_eq_some_iff.mp isEntry
  rw [← same]
  rfl

/-- No key is given twice, neither in a document nor across both. -/
theorem entries_nodup (unique : graph.UniqueNodes) :
    ((graph.agentEntries (resolve graph)).map Prod.fst ++
      (graph.taskEntries (resolve graph)).map Prod.fst).Nodup := by
  rw [agentEntries_keys, taskEntries_keys, ← List.map_append]
  exact identifiers_nodup unique

theorem agentsDocument_eq (unique : graph.UniqueNodes) :
    graph.agentsDocument (resolve graph) = graph.agentEntries (resolve graph) :=
  Yaml.ofEntries_of_nodup (List.nodup_append.mp (entries_nodup unique)).1

theorem tasksDocument_eq (unique : graph.UniqueNodes) :
    graph.tasksDocument (resolve graph) = graph.taskEntries (resolve graph) :=
  Yaml.ofEntries_of_nodup (List.nodup_append.mp (entries_nodup unique)).2.1

theorem agentsDocument_writable (unique : graph.UniqueNodes) :
    (graph.agentsDocument (resolve graph)).Writable := by
  have keys := (List.nodup_append.mp (entries_nodup unique)).1
  rw [agentsDocument_eq unique]
  exact Yaml.Document.writable_of_names keys graph.agentEntries_names (by decide) (by decide)
    (by decide +kernel)

theorem tasksDocument_writable (unique : graph.UniqueNodes) :
    (graph.tasksDocument (resolve graph)).Writable := by
  have keys := (List.nodup_append.mp (entries_nodup unique)).2.1
  rw [tasksDocument_eq unique]
  exact Yaml.Document.writable_of_names keys graph.taskEntries_names (by decide) (by decide)
    (by decide +kernel)

/-! ### What is referred to -/

theorem tasks_of_mem_predecessors {task source : Node}
    (member : source ∈ graph.predecessors task.id) : source ∈ graph.tasks := by
  obtain ⟨kind, _, edges, chain⟩ := mem_predecessors_iff.mp member
  exact mem_tasks_iff.mpr ⟨mem_of_node? chain.found, kind⟩

theorem agents_of_agentFor? {task agent : Node} (assigned : graph.agentFor? task.id = some agent) :
    agent ∈ graph.agents := by
  have kind : agent.kind = .agent := by simpa using List.find?_some assigned
  obtain ⟨_, edges, chain⟩ := mem_feedersInto_iff.mp (List.mem_of_find?_eq_some assigned)
  exact mem_agents_iff.mpr ⟨mem_of_node? chain.found, kind⟩

theorem lookup_agentEntries (unique : graph.UniqueNodes) {agent : Node}
    (isAgent : agent ∈ graph.agents) : ∃ data, agent.agent? = some data ∧
      (graph.agentEntries (resolve graph)).lookup ((resolve graph).of agent) =
        some data.fields := by
  obtain ⟨data, found⟩ := Node.exists_agent (mem_agents_iff.mp isAgent).2
  have distinct := (List.nodup_append.mp (entries_nodup unique)).1
  have member : ((resolve graph).of agent, data.fields) ∈
      graph.agentEntries (resolve graph) := by
    refine List.mem_filterMap.mpr ⟨agent, isAgent, ?_⟩
    rw [found]
    rfl
  exact ⟨data, found, lookup_of_mem distinct member⟩

theorem lookup_taskEntries (unique : graph.UniqueNodes) {task : Node}
    (isTask : task ∈ graph.tasks) : ∃ data, task.task? = some data ∧
      (graph.taskEntries (resolve graph)).lookup ((resolve graph).of task) =
        some (data.fields (graph.agentName (resolve graph) task.id)) := by
  obtain ⟨data, found⟩ := Node.exists_task (mem_tasks_iff.mp isTask).2
  have distinct := (List.nodup_append.mp (entries_nodup unique)).2.1
  have member : ((resolve graph).of task,
      data.fields (graph.agentName (resolve graph) task.id)) ∈
        graph.taskEntries (resolve graph) := by
    refine List.mem_filterMap.mpr ⟨task, isTask, ?_⟩
    rw [found]
    rfl
  exact ⟨data, found, lookup_of_mem distinct member⟩

theorem agentName_of_agentFor? {task : NodeId} {agent : Node}
    (assigned : graph.agentFor? task = some agent) :
    graph.agentName (resolve graph) task = (resolve graph).of agent := by
  rw [agentName, assigned]

theorem sequencedTasks_forall₂ (unique : graph.UniqueNodes) :
    List.Forall₂ (fun id task => task ∈ graph.tasks ∧ task.id = id) graph.sequence
      (Scaffold.sequencedTasks graph) := by
  apply forall₂_filterMap
  intro id member
  obtain ⟨task, isTask, found⟩ := task_of_mem_sequence unique member
  exact ⟨task, found, isTask, id_of_node? found⟩

theorem mem_sequencedTasks_iff (unique : graph.UniqueNodes) {task : Node} :
    task ∈ Scaffold.sequencedTasks graph ↔ task ∈ graph.tasks := by
  unfold Scaffold.sequencedTasks
  rw [List.mem_filterMap]
  constructor
  · intro sequenced
    obtain ⟨id, member, found⟩ := sequenced
    obtain ⟨other, isTask, otherFound⟩ := task_of_mem_sequence unique member
    rw [found] at otherFound
    exact Option.some.inj otherFound ▸ isTask
  · intro isTask
    refine ⟨task.id, (mem_sequence_iff unique).mpr (List.mem_map_of_mem isTask), ?_⟩
    exact node?_of_mem unique (mem_tasks_iff.mp isTask).1

/-- The tasks of the sequence are the tasks of the graph in another order. -/
theorem sequencedTasks_perm (unique : graph.UniqueNodes) :
    (Scaffold.sequencedTasks graph).Perm graph.tasks := by
  have ids : graph.sequence = (Scaffold.sequencedTasks graph).map Node.id := by
    rw [← List.map_id graph.sequence]
    exact map_eq_map_of_forall₂ (sequencedTasks_forall₂ unique) (fun _ _ found => found.2.symm)
  have sequenced := sequence_nodup unique
  rw [ids] at sequenced
  have tasks := taskIds_nodup unique
  refine (List.perm_ext_iff_of_nodup (sequenced.of_map Node.id) (tasks.of_map Node.id)).mpr ?_
  intro task
  exact mem_sequencedTasks_iff unique

/-! ### Factories -/

theorem agentFactory_names (nodes : List Node) :
    (nodes.map (Scaffold.agentFactory graph)).map Factory.name = nodes.map (resolve graph).of :=
  List.map_map

theorem taskFactory_names (nodes : List Node) :
    (nodes.map (Scaffold.taskFactory graph)).map Factory.name = nodes.map (resolve graph).of :=
  List.map_map

theorem factoryNames_nodup (unique : graph.UniqueNodes) :
    ((graph.agents.map (Scaffold.agentFactory graph) ++
      (Scaffold.sequencedTasks graph).map (Scaffold.taskFactory graph)).map
        Factory.name).Nodup := by
  rw [List.map_append, agentFactory_names, taskFactory_names, ← List.map_append]
  have ordered := (sequencedTasks_perm unique).append_left graph.agents
  exact (ordered.map (resolve graph).of).nodup_iff.mpr (identifiers_nodup unique)

/-- A task that is called as a context has a factory. -/
theorem mem_names_of_context (unique : graph.UniqueNodes) {factory : Factory}
    (defined : factory ∈ graph.agents.map (Scaffold.agentFactory graph) ++
      (Scaffold.sequencedTasks graph).map (Scaffold.taskFactory graph))
    {name : String} (called : name ∈ factory.context) :
    name ∈ ((Scaffold.sequencedTasks graph).map (Scaffold.taskFactory graph)).map
      Factory.name := by
  rw [taskFactory_names]
  rcases List.mem_append.mp defined with ofAgent | ofTask
  · obtain ⟨agent, _, same⟩ := List.mem_map.mp ofAgent
    subst same
    cases called
  · obtain ⟨task, _, same⟩ := List.mem_map.mp ofTask
    subst same
    obtain ⟨source, before, same⟩ := List.mem_map.mp called
    subst same
    exact List.mem_map_of_mem
      ((mem_sequencedTasks_iff unique).mpr (tasks_of_mem_predecessors before))

theorem outputs_nodup (unique : graph.UniqueNodes) :
    ((Scaffold.sequencedTasks graph).map (fun task => (resolve graph).of task ++ ".md")).Nodup := by
  have names := factoryNames_nodup unique
  rw [List.map_append, taskFactory_names] at names
  have apart := (List.nodup_append.mp names).2.1.map
    (fun _ _ same => (String.append_left_inj ".md").mp same)
  rw [List.map_map] at apart
  exact apart

end Graph

/-! ### Both artifacts -/

structure CrossReferences (graph : Graph) (agents tasks : Yaml.Document)
    (scaffold : Scaffold.Module) : Prop where
  agentEntries : List.Forall₂ graph.IsAgentEntry graph.agents agents
  taskEntries : List.Forall₂ graph.IsTaskEntry graph.tasks tasks
  keys : (agents.map Prod.fst ++ tasks.map Prod.fst).Nodup
  agentOfTask : ∀ task ∈ graph.tasks, ∀ agent, graph.agentFor? task.id = some agent →
    ∃ fields data, tasks.lookup ((resolve graph).of task) = some fields ∧
      fields.lookup "agent" = some ((resolve graph).of agent) ∧
      agent.agent? = some data ∧ agents.lookup ((resolve graph).of agent) = some data.fields
  agentFactories : List.Forall₂ (fun agent factory => factory.key = (resolve graph).of agent)
    graph.agents scaffold.agents
  /-- There is one factory for each task, in the order of the sequence, with its key and the
  tasks before it. -/
  taskFactories : List.Forall₂ (fun id factory =>
    ∃ task ∈ graph.tasks, task.id = id ∧ factory.key = (resolve graph).of task ∧
      factory.context = (graph.predecessors id).map (resolve graph).of)
    graph.sequence scaffold.tasks
  names : ((scaffold.agents ++ scaffold.tasks).map Factory.name).Nodup
  contexts : ∀ factory ∈ scaffold.agents ++ scaffold.tasks, ∀ name ∈ factory.context,
    name ∈ scaffold.tasks.map Factory.name
  crew : scaffold.crews =
    [{ agents := scaffold.agents.map Factory.name, tasks := scaffold.tasks.map Factory.name }]
  outputs : ∃ files : List String, scaffold.tasks.map Factory.output = files.map some ∧ files.Nodup

theorem crossReferences_of_unique {graph : Graph} (unique : graph.UniqueNodes)
    (settings : CompileSettings) :
    ∃ scaffold, Scaffold.Module.read? (graph.scaffold settings) = some scaffold ∧
      CrossReferences graph (graph.agentsDocument (resolve graph))
        (graph.tasksDocument (resolve graph)) scaffold ∧
      ∀ read, Yaml.ReadsBack read →
        read (graph.agentsDocument (resolve graph)).toText =
            some (graph.agentsDocument (resolve graph)) ∧
          read (graph.tasksDocument (resolve graph)).toText =
            some (graph.tasksDocument (resolve graph)) := by
  refine ⟨_, Scaffold.read?_scaffold graph settings, ?refers, ?readBack⟩
  case readBack =>
    intro read readsBack
    exact ⟨readsBack _ (Graph.agentsDocument_writable unique),
      readsBack _ (Graph.tasksDocument_writable unique)⟩
  rw [Graph.agentsDocument_eq unique, Graph.tasksDocument_eq unique]
  constructor
  case agentEntries => exact graph.agentEntries_forall₂
  case taskEntries => exact graph.taskEntries_forall₂
  case keys => exact Graph.entries_nodup unique
  case agentOfTask =>
    intro task isTask agent assigned
    obtain ⟨_, _, taskEntry⟩ := Graph.lookup_taskEntries unique isTask
    obtain ⟨data, found, agentEntry⟩ :=
      Graph.lookup_agentEntries unique (Graph.agents_of_agentFor? assigned)
    rw [Graph.agentName_of_agentFor? assigned] at taskEntry
    exact ⟨_, data, taskEntry, rfl, found, agentEntry⟩
  case agentFactories =>
    rw [List.forall₂_map_right_iff, List.forall₂_same]
    intro agent _
    rfl
  case taskFactories =>
    rw [List.forall₂_map_right_iff]
    refine (Graph.sequencedTasks_forall₂ unique).imp ?_
    intro id task sequenced
    obtain ⟨isTask, same⟩ := sequenced
    subst same
    exact ⟨task, isTask, rfl, rfl, rfl⟩
  case names => exact Graph.factoryNames_nodup unique
  case contexts =>
    intro factory defined name called
    exact Graph.mem_names_of_context unique defined called
  case crew => rw [Graph.agentFactory_names, Graph.taskFactory_names]
  case outputs => exact ⟨_, by rw [List.map_map, List.map_map]; rfl, Graph.outputs_nodup unique⟩

def crowdedGraph : Graph where
  nodes :=
    [{ id := "t1", data := .task { name := "crew" } },
      { id := "a1", data := .agent { name := "crew" } },
      { id := "a2", data := .agent { name := "" } },
      { id := "t2", data := .task { name := "two\nwords" } },
      { id := "t3", data := .task { name := "two words" } },
      { id := "b", data := .begin }]
  edges :=
    [⟨"e1", "b", some .execOut, "t2", some .execIn, true⟩,
      ⟨"e2", "t2", some .execOut, "t1", some .execIn, true⟩,
      ⟨"e3", "a1", some .agentOut, "t1", some .agent, false⟩]

theorem crowdedGraph_crossReferences :
    crowdedGraph.UniqueNodes ∧ crowdedGraph.sequence = ["t2", "t1", "t3"] ∧
      crowdedGraph.agents.map (resolve crowdedGraph).of = ["crew_3", "agent_2"] ∧
      crowdedGraph.tasks.map (resolve crowdedGraph).of = ["crew_2", "two_words", "two_words_2"] ∧
      ∃ agents tasks scaffold,
        Yaml.Document.read? (crowdedGraph.agentsDocument (resolve crowdedGraph)).toText =
          some agents ∧
        Yaml.Document.read? (crowdedGraph.tasksDocument (resolve crowdedGraph)).toText =
          some tasks ∧
        Scaffold.Module.read? (crowdedGraph.scaffold {}) = some scaffold ∧
        CrossReferences crowdedGraph agents tasks scaffold := by
  have unique : crowdedGraph.UniqueNodes := by decide
  obtain ⟨scaffold, reads, refers, readsBack⟩ := crossReferences_of_unique unique {}
  obtain ⟨agents, tasks⟩ := readsBack Yaml.Document.read? Yaml.readsBack_read?
  exact ⟨unique, by cbv, by decide +kernel, by decide +kernel, _, _, scaffold, agents, tasks,
    reads, refers⟩

end CrewCanvas
