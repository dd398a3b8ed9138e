/-
The order of the tasks against chains of edges.

A control chain is a list of edges along which control flows.  The task sequence
holds every task once.  It starts with the tasks at the end of a control chain
from the begin node and goes on with the others in the order of the nodes.
-/

import CrewCanvas.Proofs.Trail

namespace CrewCanvas

/-! ### Control edges and control chains -/

namespace Graph

/-- An edge along which control flows.  No agent gives control on, nor does the
agent output of a task.  A task takes control at its execution input, a reroute
if it is claimed for execution. -/
structure ControlEdge (graph : Graph) (edge : Edge) (source target : Node) : Prop where
  present : edge ∈ graph.edges
  leaves : graph.node? edge.source = some source
  enters : graph.node? edge.target = some target
  noAgent : source.kind ≠ .agent
  noAgentOutput : source.kind = .task → edge.sourceHandle ≠ some .agentOut
  admits : (target.kind = .task ∧ edge.targetHandle = some .execIn) ∨
    (target.kind = .reroute ∧ target.claimed? = some .execution)

/-- A nonempty list of control edges, each of which leaves the node that the one
before it enters. -/
inductive ControlChain (graph : Graph) : Node → List Edge → Node → Prop
  | single {edge : Edge} {source target : Node} :
      ControlEdge graph edge source target → ControlChain graph source [edge] target
  | cons {edge : Edge} {edges : List Edge} {source middle target : Node} :
      ControlEdge graph edge source middle → ControlChain graph middle edges target →
        ControlChain graph source (edge :: edges) target

end Graph

theorem Edge.leadsOn_iff {edge : Edge} {source target : Node} :
    edge.leadsOn source target = true ↔
      source.kind ≠ .agent ∧ (source.kind = .task → edge.sourceHandle ≠ some .agentOut) ∧
        ((target.kind = .task ∧ edge.targetHandle = some .execIn) ∨
          (target.kind = .reroute ∧ target.claimed? = some .execution)) := by
  unfold Edge.leadsOn
  rw [Bool.and_eq_true, Bool.and_eq_true, Edge.carries_iff, and_assoc, bne_iff_ne]
  cases target.kind <;> simp [LineKind.barredOutput]

namespace Graph

variable {graph : Graph}

theorem mem_successors_iff {source : Node} {next : NodeId}
    (found : graph.node? source.id = some source) :
    next ∈ graph.successors source ↔
      ∃ edge target, graph.ControlEdge edge source target ∧ target.id = next := by
  unfold successors outgoing entered?
  simp only [List.mem_filterMap, List.mem_filter, decide_eq_true_eq, Option.map_eq_some_iff,
    Option.filter_eq_some_iff]
  constructor
  · rintro ⟨edge, ⟨present, outgoing⟩, target, ⟨enters, leadsOn⟩, same⟩
    obtain ⟨noAgent, noAgentOutput, admits⟩ := Edge.leadsOn_iff.mp leadsOn
    exact ⟨edge, target,
      ⟨present, outgoing ▸ found, enters, noAgent, noAgentOutput, admits⟩, same⟩
  · rintro ⟨edge, target, step, same⟩
    exact ⟨edge, ⟨step.present, (id_of_node? step.leaves).symm⟩, target,
      ⟨step.enters, Edge.leadsOn_iff.mpr ⟨step.noAgent, step.noAgentOutput, step.admits⟩⟩, same⟩

/-! ### Chains and the walk -/

theorem ControlEdge.found {edge : Edge} {source target : Node}
    (step : graph.ControlEdge edge source target) : graph.node? target.id = some target :=
  node?_id step.enters

theorem ControlChain.leads {edges : List Edge} {source target : Node}
    (found : graph.node? source.id = some source)
    (chain : graph.ControlChain source edges target) :
    graph.Leads [] source.id target.id := by
  induction chain with
  | single step =>
      have entered := (mem_successors_iff found).mpr ⟨_, _, step, rfl⟩
      exact Leads.onward List.not_mem_nil found entered (Leads.here List.not_mem_nil step.found)
  | cons step _ ih =>
      have entered := (mem_successors_iff found).mpr ⟨_, _, step, rfl⟩
      exact Leads.onward List.not_mem_nil found entered (ih step.found)

theorem Leads.chain {avoided : List NodeId} {first last : NodeId} {source target : Node}
    (leads : graph.Leads avoided first last) (start : graph.node? first = some source)
    (stop : graph.node? last = some target) :
    target = source ∨ ∃ edges, graph.ControlChain source edges target := by
  induction leads generalizing source with
  | here _ _ =>
      rw [start] at stop
      cases stop
      exact Or.inl rfl
  | @onward id next last node _ found member _ ih =>
      rw [start] at found
      cases found
      obtain ⟨edge, middle, step, same⟩ := (mem_successors_iff (node?_id start)).mp member
      subst same
      right
      rcases ih step.found stop with same | ⟨edges, chain⟩
      · subst target
        exact ⟨[edge], ControlChain.single step⟩
      · exact ⟨edge :: edges, ControlChain.cons step chain⟩

theorem leads_iff_chain {source target : Node} (start : graph.node? source.id = some source)
    (stop : graph.node? target.id = some target) (different : target ≠ source) :
    graph.Leads [] source.id target.id ↔ ∃ edges, graph.ControlChain source edges target := by
  constructor
  · intro leads
    rcases leads.chain start stop with same | chain
    · exact absurd same different
    · exact chain
  · rintro ⟨edges, chain⟩
    exact chain.leads start

theorem reached_of_begin {first : Node} (begins : graph.beginNode? = some first) :
    graph.reached = (graph.trail [] [first.id]).filter graph.isTask := by
  unfold reached
  rw [begins]
  exact walk_eq_trail graph [] [first.id]

theorem reached_of_noBegin (absent : graph.beginNode? = none) : graph.reached = [] := by
  unfold reached
  rw [absent]

theorem mem_reached_iff_leads {id : NodeId} :
    id ∈ graph.reached ↔
      graph.isTask id = true ∧
        ∃ first, graph.beginNode? = some first ∧ graph.Leads [] first.id id := by
  cases begins : graph.beginNode? with
  | none => simp [reached_of_noBegin begins]
  | some first =>
      rw [reached_of_begin begins, List.mem_filter, mem_trail_iff, and_comm]
      simp

theorem mem_reached_iff (unique : graph.UniqueNodes) {task : Node} (member : task ∈ graph.nodes)
    (kind : task.kind = .task) :
    task.id ∈ graph.reached ↔
      ∃ first edges, graph.beginNode? = some first ∧ graph.ControlChain first edges task := by
  have stop := node?_of_mem unique member
  rw [mem_reached_iff_leads, isTask_iff stop, and_iff_right kind]
  have step (first : Node) (begins : graph.beginNode? = some first) :
      graph.Leads [] first.id task.id ↔ ∃ edges, graph.ControlChain first edges task := by
    have start := node?_of_mem unique (mem_of_beginNode? begins)
    refine leads_iff_chain start stop ?_
    intro same
    have starts := kind_of_beginNode? begins
    rw [← same, kind] at starts
    cases starts
  constructor
  · rintro ⟨first, begins, leads⟩
    obtain ⟨edges, chain⟩ := (step first begins).mp leads
    exact ⟨first, edges, begins, chain⟩
  · rintro ⟨first, edges, begins, chain⟩
    exact ⟨first, begins, (step first begins).mpr ⟨edges, chain⟩⟩

/-! ### The sequence -/

theorem mem_taskIds_iff {id : NodeId} (unique : graph.UniqueNodes) :
    id ∈ graph.tasks.map Node.id ↔ graph.isTask id = true := by
  unfold isTask
  simp only [List.mem_map, mem_tasks_iff, Option.any_eq_true, decide_eq_true_eq]
  constructor
  · rintro ⟨task, ⟨member, kind⟩, same⟩
    subst same
    exact ⟨task, node?_of_mem unique member, kind⟩
  · rintro ⟨task, found, kind⟩
    exact ⟨task, ⟨mem_of_node? found, kind⟩, id_of_node? found⟩

theorem taskIds_nodup (unique : graph.UniqueNodes) : (graph.tasks.map Node.id).Nodup :=
  unique.sublist (List.filter_sublist.map Node.id)

theorem reached_nodup (graph : Graph) : graph.reached.Nodup := by
  cases begins : graph.beginNode? with
  | none =>
      rw [reached_of_noBegin begins]
      exact List.nodup_nil
  | some first =>
      rw [reached_of_begin begins]
      exact (trail_nodup graph _ _).sublist List.filter_sublist

theorem sequence_nodup (unique : graph.UniqueNodes) : graph.sequence.Nodup := by
  refine List.nodup_append.mpr ⟨reached_nodup graph, ?_, ?_⟩
  · exact (taskIds_nodup unique).sublist List.filter_sublist
  · intro id early other late same
    subst other
    have unreached := (List.mem_filter.mp late).2
    exact absurd early (of_decide_eq_true unreached)

theorem mem_sequence_iff {id : NodeId} (unique : graph.UniqueNodes) :
    id ∈ graph.sequence ↔ id ∈ graph.tasks.map Node.id := by
  unfold sequence
  rw [List.mem_append, List.mem_filter, decide_eq_true_eq]
  constructor
  · rintro (early | ⟨member, _⟩)
    · exact (mem_taskIds_iff unique).mpr (mem_reached_iff_leads.mp early).1
    · exact member
  · intro member
    by_cases early : id ∈ graph.reached
    · exact Or.inl early
    · exact Or.inr ⟨member, early⟩

/-- What makes a list of ids an order of the tasks that starts with the reached
ones: control chains from the begin node decide which tasks these are. -/
structure ReachedFirst (graph : Graph) (reached order : List NodeId) : Prop where
  once : ∀ id, order.count id = if id ∈ graph.tasks.map Node.id then 1 else 0
  parts : order = reached ++ (graph.tasks.map Node.id).filter (fun id => id ∉ reached)
  reachedIff : ∀ task ∈ graph.tasks, task.id ∈ reached ↔
    ∃ first edges, graph.beginNode? = some first ∧ graph.ControlChain first edges task
  withoutBegin : (∀ node ∈ graph.nodes, node.kind ≠ .begin) → order = graph.tasks.map Node.id

/-- The task sequence holds every task once and nothing else, the tasks at the end
of a control chain from the begin node first. -/
theorem sequence_reachedFirst (unique : graph.UniqueNodes) :
    graph.ReachedFirst graph.reached graph.sequence where
  once := by
    intro id
    rw [(sequence_nodup unique).count]
    simp only [mem_sequence_iff unique]
  parts := rfl
  reachedIff := by
    intro task member
    obtain ⟨present, kind⟩ := mem_tasks_iff.mp member
    exact mem_reached_iff unique present kind
  withoutBegin := by
    intro noBegin
    have absent : graph.beginNode? = none := by
      apply List.find?_eq_none.mpr
      intro node member
      simpa using noBegin node member
    unfold sequence
    simp [reached_of_noBegin absent]

/-- A begin node behind its tasks, two reroutes that feed each other, parallel
edges, a cycle of tasks, and a task that only an agent feeds. -/
def loopGraph : Graph :=
  { nodes :=
      [Node.plain .task "b", Node.plain .agent "w", Node.plain .task "z",
        { id := "r", data := .reroute (some .execution) },
        { id := "q", data := .reroute (some .execution) },
        Node.plain .task "a", Node.plain .begin "s"]
    edges :=
      [⟨"e1", "s", some .execOut, "r", none, false⟩, ⟨"e2", "r", none, "q", none, true⟩,
        ⟨"e3", "q", none, "r", none, true⟩, ⟨"e4", "q", none, "a", some .execIn, true⟩,
        ⟨"e5", "a", some .execOut, "b", some .execIn, true⟩,
        ⟨"e6", "a", some .execOut, "b", some .execIn, true⟩,
        ⟨"e7", "b", some .execOut, "a", some .execIn, true⟩,
        ⟨"e8", "w", some .agentOut, "z", some .agent, false⟩] }

theorem loopGraph_reachedFirst :
    loopGraph.UniqueNodes ∧ loopGraph.reached = ["a", "b"] ∧
      loopGraph.ReachedFirst ["a", "b"] ["a", "b", "z"] := by
  have unique : loopGraph.UniqueNodes := by decide
  have reached : loopGraph.reached = ["a", "b"] := by cbv
  have order : loopGraph.sequence = ["a", "b", "z"] := by cbv
  have split := sequence_reachedFirst unique
  rw [reached, order] at split
  exact ⟨unique, reached, split⟩

end Graph

end CrewCanvas
