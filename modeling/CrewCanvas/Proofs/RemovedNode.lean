/-
A node that is removed.

A node goes with the edges that touch it, and nothing else goes.  Two nodes can be removed in
either order, and removing a node that was just added takes the addition back.  The walk along
control flow passes by a node that it does not meet, so without it the order of the tasks stays.
No walk meets an agent, and the walk back finds no task along an edge of an agent.
-/

import CrewCanvas.Proofs.SameWalks
import CrewCanvas.Proofs.WellFormed
import Mathlib.Data.List.Find

namespace CrewCanvas.Graph

/-- A graph without a node and without the edges that touch it. -/
def without (graph : Graph) (id : NodeId) : Graph where
  nodes := graph.nodes.filter (fun node => node.id ≠ id)
  edges := graph.edges.filter (fun edge => !edge.touches id)

variable {graph next : Graph} {id : NodeId} {node : Node}

theorem removeNode_eq_ok_iff :
    graph.removeNode id = .ok next ↔ id ∈ graph.nodeIds ∧ next = graph.without id := by
  rw [mem_nodeIds_iff]
  unfold removeNode
  cases graph.node? id with
  | none => simp
  | some node => simp [without, eq_comm]

theorem removeNode_of_mem (present : id ∈ graph.nodeIds) :
    graph.removeNode id = .ok (graph.without id) :=
  removeNode_eq_ok_iff.mpr ⟨present, rfl⟩

/-! ### What goes and what stays -/

theorem nodeIds_without (graph : Graph) (id : NodeId) :
    (graph.without id).nodeIds = graph.nodeIds.filter (fun other => other ≠ id) := by
  unfold nodeIds without
  rw [List.filter_map]
  rfl

theorem mem_nodeIds_without {other : NodeId} (different : other ≠ id)
    (present : other ∈ graph.nodeIds) : other ∈ (graph.without id).nodeIds := by
  rw [nodeIds_without]
  exact List.mem_filter.mpr ⟨present, decide_eq_true different⟩

theorem untouched_iff {edge : Edge} :
    (!edge.touches id) = true ↔ edge.source ≠ id ∧ edge.target ≠ id := by
  simp [Edge.touches]

theorem edges_without (graph : Graph) (id : NodeId) :
    (graph.without id).edges =
      graph.edges.filter (fun edge => edge.source ≠ id ∧ edge.target ≠ id) := by
  apply List.filter_congr
  intro edge _
  exact Bool.eq_iff_iff.mpr (untouched_iff.trans decide_eq_true_iff.symm)

theorem endsPresent_without (ends : graph.EndsPresent) (id : NodeId) :
    (graph.without id).EndsPresent := by
  intro edge member
  obtain ⟨old, untouched⟩ := List.mem_filter.mp member
  obtain ⟨source, target⟩ := untouched_iff.mp untouched
  exact ⟨mem_nodeIds_without source (ends edge old).1, mem_nodeIds_without target (ends edge old).2⟩

/-- One node is gone, and the nodes before and behind it are there as they were. -/
theorem nodes_without (unique : graph.UniqueNodes) (found : graph.node? id = some node) :
    ∃ front back, graph.nodes = front ++ node :: back ∧
      (graph.without id).nodes = front ++ back := by
  obtain ⟨front, back, parts⟩ := List.append_of_mem (mem_of_node? found)
  refine ⟨front, back, parts, ?_⟩
  unfold without
  rw [parts, ← id_of_node? found]
  exact filter_others (others_of_nodup unique parts)

theorem without_comm (graph : Graph) (id other : NodeId) :
    (graph.without id).without other = (graph.without other).without id :=
  congrArg₂ Graph.mk (List.filter_comm _ _ graph.nodes) (List.filter_comm _ _ graph.edges)

/-- A node that was added is removed alone, because no edge touches it yet. -/
theorem without_of_addNode (ends : graph.EndsPresent) (added : graph.addNode node = .ok next) :
    next.without node.id = graph := by
  obtain ⟨absent, _, shape⟩ := addNode_eq_ok_iff.mp added
  have fresh := node?_eq_none_iff.mp absent
  have nodes : (graph.nodes ++ [node]).filter (fun other => other.id ≠ node.id) = graph.nodes := by
    have others : node.id ∉ (graph.nodes ++ []).map Node.id := by
      rw [List.append_nil]
      exact fresh
    exact (filter_others others).trans (List.append_nil _)
  have edges : graph.edges.filter (fun edge => !edge.touches node.id) = graph.edges := by
    rw [List.filter_eq_self]
    intro edge member
    obtain ⟨source, target⟩ := ends edge member
    exact untouched_iff.mpr ⟨fun same => fresh (same ▸ source), fun same => fresh (same ▸ target)⟩
  rw [shape]
  exact congrArg₂ Graph.mk nodes edges

/-! ### Walks past the removed node -/

theorem node?_without {other : NodeId} (different : other ≠ id) :
    (graph.without id).node? other = graph.node? other :=
  node?_of_removed rfl different

theorem outgoing_without (other : NodeId) :
    (graph.without id).outgoing other =
      (graph.outgoing other).filter (fun edge => !edge.touches id) :=
  List.filter_comm _ _ graph.edges

theorem incoming_without (other : NodeId) :
    (graph.without id).incoming other =
      (graph.incoming other).filter (fun edge => !edge.touches id) :=
  List.filter_comm _ _ graph.edges

/-- Control flow enters the same nodes from a node, unless it enters the removed one. -/
theorem successors_without (different : node.id ≠ id) (unentered : id ∉ graph.successors node) :
    (graph.without id).successors node = graph.successors node := by
  unfold successors
  rw [outgoing_without]
  apply filterMap_filter_congr
  · intro edge _ keeps
    unfold entered?
    rw [node?_without (untouched_iff.mp keeps).2]
  · intro edge leaves touches
    rw [Option.map_eq_none_iff, Option.eq_none_iff_forall_ne_some]
    intro target entered
    have atTarget := id_of_node? (Option.filter_eq_some_iff.mp entered).1
    have isTarget : edge.target = id := by
      have atSource : edge.source = node.id := of_decide_eq_true (List.mem_filter.mp leaves).2
      simpa [Edge.touches, atSource, different] using touches
    refine unentered (List.mem_filterMap.mpr ⟨edge, leaves, ?_⟩)
    rw [entered, Option.map_some, atTarget, isTarget]

theorem Leads.extend {first last further : NodeId} (leads : Leads graph [] first last)
    (found : graph.node? last = some node) (entered : further ∈ graph.successors node) :
    Leads graph [] first further := by
  induction leads with
  | here fresh _ =>
      obtain ⟨_, target, step, atTarget⟩ := (mem_successors_iff (node?_id found)).mp entered
      exact Leads.onward fresh found entered (Leads.here List.not_mem_nil (atTarget ▸ step.found))
  | onward fresh present member _ ih => exact Leads.onward fresh present member (ih found)

theorem reached_without (unmet : ¬graph.Meets id)
    (begins : (graph.without id).beginNode? = graph.beginNode?) :
    (graph.without id).reached = graph.reached := by
  refine reached_congr ?_ (congrArg (Option.map Node.id) begins)
  intro other node met found
  have different : other ≠ id := fun same => unmet (same ▸ met)
  have unentered : id ∉ graph.successors node := by
    intro entered
    obtain ⟨first, isFirst, leads⟩ := met
    exact unmet ⟨first, isFirst, leads.extend found entered⟩
  have ownId : node.id ≠ id := (id_of_node? found).symm ▸ different
  exact ⟨node, (node?_without different).trans found, rfl, successors_without ownId unentered⟩

theorem beginNode?_without (unique : graph.UniqueNodes) (found : graph.node? id = some node)
    (kind : node.kind ≠ .begin) : (graph.without id).beginNode? = graph.beginNode? := by
  unfold beginNode? without
  rw [List.find?_filter]
  apply List.find?_congr
  intro other member
  by_cases same : other.id = id
  · have isNode : other = node := by
      have foundOther := node?_of_mem unique member
      rw [same, found] at foundOther
      exact (Option.some.inj foundOther).symm
    simp [isNode, kind]
  · simp [same]

theorem taskIds_without (graph : Graph) (id : NodeId) :
    (graph.without id).tasks.map Node.id =
      (graph.tasks.map Node.id).filter (fun other => other ≠ id) := by
  have tasks : (graph.without id).tasks = graph.tasks.filter (fun node => node.id ≠ id) :=
    List.filter_comm _ _ graph.nodes
  rw [tasks, List.filter_map]
  rfl

/-- Without a node that control flow does not meet, the order of the other tasks stays. -/
theorem sequence_without (unique : graph.UniqueNodes) (found : graph.node? id = some node)
    (kind : node.kind ≠ .begin) (unmet : ¬graph.Meets id) :
    (graph.without id).sequence = graph.sequence.filter (fun other => other ≠ id) := by
  have reached := reached_without unmet (beginNode?_without unique found kind)
  have unreached : graph.reached.filter (fun other => other ≠ id) = graph.reached := by
    rw [List.filter_eq_self]
    intro other isReached
    refine decide_eq_true ?_
    intro same
    exact unmet (mem_reached_iff_leads.mp (same ▸ isReached)).2
  unfold sequence
  rw [reached, taskIds_without, List.filter_append, unreached, List.filter_comm]

theorem not_meets_of_unreached {task : Node} (found : graph.node? id = some task)
    (kind : task.kind = .task) (unreached : id ∉ graph.reached) : ¬graph.Meets id := by
  intro met
  exact unreached (mem_reached_iff_leads.mpr ⟨(isTask_iff found).mpr kind, met⟩)

/-! ### Agents -/

theorem ControlChain.enters {edges : List Edge} {source target : Node}
    (chain : graph.ControlChain source edges target) :
    target.kind = .task ∨ target.kind = .reroute := by
  induction chain with
  | single step => exact step.admits.imp And.left And.left
  | cons _ _ ih => exact ih

/-- Control flow leads to no agent. -/
theorem not_meets_agent (unique : graph.UniqueNodes) {agent : Node}
    (found : graph.node? id = some agent) (kind : agent.kind = .agent) : ¬graph.Meets id := by
  intro met
  obtain ⟨first, begins, leads⟩ := met
  have start := node?_of_mem unique (mem_of_beginNode? begins)
  rcases leads.chain start found with same | ⟨edges, chain⟩
  · have isBegin := kind_of_beginNode? begins
    rw [← same, kind] at isBegin
    cases isBegin
  · have entered := chain.enters
    rw [kind] at entered
    rcases entered with isTask | isReroute
    · cases isTask
    · cases isReroute

/-- An edge out of an agent shows no task to the walk back. -/
theorem sameInto_without_agent {agent : Node} (found : graph.node? id = some agent)
    (kind : agent.kind = .agent) {shown : Node → Option Node}
    (hidden : shown agent = none) {other : NodeId} (different : other ≠ id) :
    SameInto graph (graph.without id) .execution shown shown other := by
  intro keep
  rw [incoming_without, List.filter_comm]
  apply filterMap_filter_congr
  · intro edge _ keeps
    unfold sight
    rw [node?_without (untouched_iff.mp keeps).1]
  · intro edge enters touches
    have atSource : edge.source = id := by
      obtain ⟨incoming, _⟩ := List.mem_filter.mp enters
      have atTarget : edge.target = other := (mem_incoming_iff.mp incoming).2
      simpa [Edge.touches, atTarget, different] using touches
    unfold sight
    rw [atSource, found]
    simp [kind, hidden]

theorem predecessors_without_agent {agent : Node} (found : graph.node? id = some agent)
    (kind : agent.kind = .agent) {other : NodeId} (different : other ≠ id) :
    (graph.without id).predecessors other = graph.predecessors other := by
  apply predecessors_congr
  intro passed onWay
  have hidden : Option.guard (fun node : Node => node.kind = .task ∧ node.id ≠ other) agent =
      none := by
    simp [kind]
  refine sameInto_without_agent found kind hidden ?_
  rcases onWay with isOther | ⟨reroute, present, claimed⟩
  · exact isOther ▸ different
  · intro same
    have isReroute := Node.kind_of_claimed? claimed
    rw [same, found] at present
    cases present
    rw [kind] at isReroute
    cases isReroute

/-! ### Removing nodes -/

/-- What is left of a graph without a node: the other nodes and the edges with neither end at it,
as they were and in their order.  Both ends of these edges are still there. -/
structure Removed (graph next : Graph) (id : NodeId) : Prop where
  nodes : ∃ front node back, graph.nodes = front ++ node :: back ∧ node.id = id ∧
    next.nodes = front ++ back
  edges : next.edges = graph.edges.filter (fun edge => edge.source ≠ id ∧ edge.target ≠ id)
  ends : next.EndsPresent

theorem removed_without (unique : graph.UniqueNodes) (ends : graph.EndsPresent)
    (found : graph.node? id = some node) : Removed graph (graph.without id) id where
  nodes := by
    obtain ⟨front, back, parts, left⟩ := nodes_without unique found
    exact ⟨front, node, back, parts, id_of_node? found, left⟩
  edges := edges_without graph id
  ends := endsPresent_without ends id

structure CutsOut (graph : Graph) : Prop where
  removed : ∀ id ∈ graph.nodeIds, ∃ next, graph.removeNode id = .ok next ∧ Removed graph next id
  eitherOrder : ∀ id ∈ graph.nodeIds, ∀ other ∈ graph.nodeIds, id ≠ other →
    ∃ first second last, graph.removeNode id = .ok first ∧ graph.removeNode other = .ok second ∧
      first.removeNode other = .ok last ∧ second.removeNode id = .ok last
  addition : ∀ node next, graph.addNode node = .ok next → next.removeNode node.id = .ok graph
  /-- Without an agent every other id has the tasks before it that it had.  The id of the removed
  agent is left out, since that list can change: the edges of the agent go with it. -/
  agent : ∀ agent ∈ graph.agents, ∃ next, graph.removeNode agent.id = .ok next ∧
    next.sequence = graph.sequence ∧
    ∀ id, id ≠ agent.id → next.predecessors id = graph.predecessors id
  unreachedTask : ∀ task ∈ graph.tasks, task.id ∉ graph.reached →
    ∃ next, graph.removeNode task.id = .ok next ∧
      next.sequence = graph.sequence.filter (fun id => id ≠ task.id)

theorem removeNode_cutsOut (unique : graph.UniqueNodes) (ends : graph.EndsPresent) :
    graph.CutsOut where
  removed := by
    intro id present
    obtain ⟨node, found⟩ := mem_nodeIds_iff.mp present
    exact ⟨_, removeNode_of_mem present, removed_without unique ends found⟩
  eitherOrder := by
    intro id present other otherPresent different
    refine ⟨_, _, _, removeNode_of_mem present, removeNode_of_mem otherPresent,
      removeNode_of_mem (mem_nodeIds_without different.symm otherPresent), ?_⟩
    rw [without_comm]
    exact removeNode_of_mem (mem_nodeIds_without different present)
  addition := by
    intro node next added
    obtain ⟨_, _, shape⟩ := addNode_eq_ok_iff.mp added
    refine removeNode_eq_ok_iff.mpr ⟨?_, (without_of_addNode ends added).symm⟩
    simp [shape, nodeIds]
  agent := by
    intro agent isAgent
    obtain ⟨member, kind⟩ := mem_agents_iff.mp isAgent
    have found := node?_of_mem unique member
    have unmet := not_meets_agent unique found kind
    refine ⟨_, removeNode_of_mem (List.mem_map_of_mem member), ?_, ?_⟩
    · rw [sequence_without unique found (by simp [kind]) unmet, List.filter_eq_self]
      intro id sequenced
      refine decide_eq_true ?_
      intro same
      rw [mem_sequence_iff unique, mem_taskIds_iff unique, same, isTask_iff found,
        kind] at sequenced
      cases sequenced
    · intro id different
      exact predecessors_without_agent found kind different
  unreachedTask := by
    intro task isTask unreached
    obtain ⟨member, kind⟩ := mem_tasks_iff.mp isTask
    have found := node?_of_mem unique member
    exact ⟨_, removeNode_of_mem (List.mem_map_of_mem member),
      sequence_without unique found (by simp [kind]) (not_meets_of_unreached found kind unreached)⟩

def tangledGraph : Graph :=
  { nodes :=
      [Node.plain .task "z", Node.plain .agent "w", Node.plain .begin "s",
        { id := "r", data := .reroute (some .execution) }, Node.plain .task "b",
        Node.plain .task "a"]
    edges :=
      [⟨"e1", "z", some .execOut, "z", some .execIn, true⟩,
        ⟨"e2", "r", none, "w", some .execIn, true⟩,
        ⟨"e3", "s", some .execOut, "r", none, true⟩,
        ⟨"e4", "w", some .agentOut, "b", some .execIn, true⟩,
        ⟨"e5", "r", none, "a", some .execIn, true⟩,
        ⟨"e6", "z", some .execOut, "r", none, true⟩,
        ⟨"e7", "a", some .execOut, "b", some .execIn, true⟩,
        ⟨"e8", "w", some .agentOut, "z", some .agent, false⟩,
        ⟨"e9", "b", some .execOut, "a", some .execIn, true⟩] }

theorem tangledGraph_cutsOut :
    tangledGraph.UniqueNodes ∧ tangledGraph.EndsPresent ∧ tangledGraph.reached = ["a", "b"] ∧
      tangledGraph.sequence = ["a", "b", "z"] ∧
      (tangledGraph.predecessors "a").map Node.id = ["z", "b"] ∧
      ((tangledGraph.without "w").predecessors "a").map Node.id = ["z", "b"] ∧
      (tangledGraph.without "z").sequence = ["a", "b"] ∧ tangledGraph.CutsOut := by
  have unique : tangledGraph.UniqueNodes := by decide
  have ends : tangledGraph.EndsPresent := by decide
  exact ⟨unique, ends, by cbv, by cbv, by cbv, by cbv, by cbv, removeNode_cutsOut unique ends⟩

end CrewCanvas.Graph
