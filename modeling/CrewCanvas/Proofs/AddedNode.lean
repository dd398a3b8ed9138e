/-
A node that is added.

Adding a node changes nothing that a graph was compiled to.  The new node stands behind the
others, so that the names before it are given as they were.  Both ends of every edge are there
already, so that no edge touches the new node and no walk comes across it.  Even a new begin
node, with which the walk along control flow starts, leads to nothing.
-/

import CrewCanvas.Proofs.FreeNames
import CrewCanvas.Proofs.SameWalks
import CrewCanvas.Proofs.Subdivision

namespace CrewCanvas

namespace Graph

open Identifiers (resolve reserved assign)

def push (graph : Graph) (node : Node) : Graph := { graph with nodes := graph.nodes ++ [node] }

variable {graph next : Graph} {node : Node} {line : LineKind} {α : Type}

theorem node?_push {id : NodeId} (present : id ∈ graph.nodeIds) :
    (graph.push node).node? id = graph.node? id := by
  obtain ⟨other, found⟩ := mem_nodeIds_iff.mp present
  rw [found]
  exact node?_append rfl found

theorem node?_push_self (fresh : node.id ∉ graph.nodeIds) :
    (graph.push node).node? node.id = some node :=
  node?_append_self rfl (node?_eq_none_iff.mpr fresh)

/-! ### Identifiers -/

theorem get?_push {id : NodeId} (different : id ≠ node.id) :
    (resolve (graph.push node)).get? id = (resolve graph).get? id := by
  have parts : (graph.push node).nodes = graph.nodes ++ [node] := rfl
  unfold Identifiers.get?
  rw [entries_parts parts, List.find?_append]
  generalize ((assign reserved graph.nodes).map Prod.snd).reverse ++ reserved = taken
  have absent : (assign taken [node]).find? (fun entry => entry.1 = id) = none := by
    rw [List.find?_eq_none]
    intro entry member own
    have named : entry.1 ∈ (assign taken [node]).map Prod.fst := List.mem_map_of_mem member
    rw [Identifiers.assign_ids, of_decide_eq_true own] at named
    have isNode : id ∈ [node.id] := (List.filter_sublist.map Node.id).subset named
    exact different (List.mem_singleton.mp isNode)
  rw [absent, Option.or_none]
  rfl

theorem mem_nodeIds_of_get? {id : NodeId} {name : String}
    (given : (resolve graph).get? id = some name) : id ∈ graph.nodeIds := by
  have known := Identifiers.get?_isSome_iff.mp (Option.isSome_of_eq_some given)
  obtain ⟨other, member, same, _⟩ := mem_entryIds_iff.mp known
  exact same ▸ List.mem_map_of_mem member

/-! ### Walks -/

section Walks

variable (ends : graph.EndsPresent)

include ends

theorem sameInto_push (shown : Node → Option α) (id : NodeId) :
    SameInto graph (graph.push node) line shown shown id := by
  intro keep
  apply List.filterMap_congr
  intro edge member
  have present : edge ∈ graph.edges := (List.mem_filter.mp (List.mem_filter.mp member).1).1
  unfold sight
  rw [node?_push (ends edge present).1]

theorem successors_push (source : Node) :
    (graph.push node).successors source = graph.successors source := by
  apply List.filterMap_congr
  intro edge member
  unfold entered?
  rw [node?_push (ends edge (List.mem_filter.mp member).1).2]

theorem successors_eq_nil (fresh : node.id ∉ graph.nodeIds) : graph.successors node = [] := by
  have none : graph.outgoing node.id = [] := by
    rw [outgoing, List.filter_eq_nil_iff]
    intro edge member leaves
    exact fresh (of_decide_eq_true leaves ▸ (ends edge member).1)
  rw [successors, none, List.filterMap_nil]

/-- From a new begin node control flow reaches nothing. -/
theorem reached_push_begin (fresh : node.id ∉ graph.nodeIds) (isBegin : node.kind = .begin)
    (first : (graph.push node).beginNode? = some node) : (graph.push node).reached = [] := by
  have found := node?_push_self fresh
  have noTask : ¬(graph.push node).isTask node.id = true := by
    rw [isTask_iff found, isBegin]
    exact NodeKind.noConfusion
  rw [reached_of_begin first, trail_fresh List.not_mem_nil found, successors_push ends,
    successors_eq_nil ends fresh, List.nil_append, trail, List.filter_cons_of_neg noTask,
    List.filter_nil]

theorem reached_push (fresh : node.id ∉ graph.nodeIds)
    (begins : node.kind = .begin → graph.beginNode? = none) :
    (graph.push node).reached = graph.reached := by
  have first : (graph.push node).beginNode? =
      graph.beginNode?.or (if node.kind = .begin then some node else none) := by
    unfold beginNode?
    rw [push, List.find?_append, List.find?_singleton]
    simp
  by_cases isBegin : node.kind = .begin
  · have absent := begins isBegin
    rw [absent, if_pos isBegin, Option.none_or] at first
    rw [reached_of_noBegin absent, reached_push_begin ends fresh isBegin first]
  · rw [if_neg isBegin, Option.or_none] at first
    refine reached_congr ?_ (congrArg (Option.map Node.id) first)
    intro id other _ found
    have present : id ∈ graph.nodeIds := mem_nodeIds_iff.mpr ⟨other, found⟩
    exact ⟨other, (node?_push present).trans found, rfl, successors_push ends other⟩

theorem sequence_push (fresh : node.id ∉ graph.nodeIds)
    (begins : node.kind = .begin → graph.beginNode? = none) :
    (graph.push node).sequence =
      graph.sequence ++ if node.kind = .task then [node.id] else [] := by
  have unreached : node.id ∉ graph.reached := by
    intro member
    obtain ⟨_, _, _, leads⟩ := mem_reached_iff_leads.mp member
    exact fresh (mem_nodeIds_iff.mpr leads.last_found)
  have tasks : (graph.push node).tasks.map Node.id =
      graph.tasks.map Node.id ++ if node.kind = .task then [node.id] else [] := by
    unfold Graph.tasks
    rw [push, List.filter_append, List.map_append, List.filter_singleton]
    by_cases kind : node.kind = .task
    · simp [kind]
    · simp [kind]
  simp only [sequence, reached_push ends fresh begins, tasks, List.filter_append,
    List.append_assoc]
  by_cases kind : node.kind = .task
  · simp [kind, unreached]
  · simp [kind]

end Walks

/-- What is compiled of a graph stays when a node is added: the names, the order of the tasks,
behind which a new task stands, and what feeds each task. -/
structure Undisturbed (graph next : Graph) (node : Node) : Prop where
  identifiers : ∀ id name, (resolve graph).get? id = some name →
    (resolve next).get? id = some name
  names : ∀ other ∈ graph.nodes, (resolve next).of other = (resolve graph).of other
  sequence : next.sequence = graph.sequence ++ if node.kind = .task then [node.id] else []
  predecessors : ∀ id, next.predecessors id = graph.predecessors id
  agentFor : ∀ id, next.agentFor? id = graph.agentFor? id

theorem addNode_undisturbed (ends : graph.EndsPresent) (added : graph.addNode node = .ok next) :
    Undisturbed graph next node := by
  obtain ⟨absent, begins, shape⟩ := addNode_eq_ok_iff.mp added
  have fresh := node?_eq_none_iff.mp absent
  have isPush : next = graph.push node := shape
  have different (id : NodeId) (present : id ∈ graph.nodeIds) : id ≠ node.id :=
    fun same => fresh (same ▸ present)
  rw [isPush]
  constructor
  · intro id name given
    rw [get?_push (different id (mem_nodeIds_of_get? given))]
    exact given
  · intro other member
    unfold Identifiers.of
    rw [get?_push (different other.id (List.mem_map_of_mem member))]
  · exact sequence_push ends fresh begins
  · intro id
    exact predecessors_congr (fun other _ => sameInto_push ends _ other)
  · intro id
    exact agentFor?_congr (fun other => sameInto_push ends _ other) id

def headless : Graph :=
  { nodes :=
      [Node.plain .task "b", { id := "w", data := .agent { name := "task 2" } },
        Node.plain .reroute "r", { id := "a", data := .task { name := "task" } }]
    edges :=
      [⟨"e1", "a", some .execOut, "b", some .execIn, true⟩,
        ⟨"e2", "b", some .execOut, "a", some .execIn, true⟩,
        ⟨"e3", "w", some .agentOut, "a", some .agent, false⟩] }

/-- With a begin node the order of the tasks becomes a walk, and stays. -/
theorem headless_undisturbed :
    headless.EndsPresent ∧ headless.beginNode? = none ∧
      ∃ next, headless.addNode (Node.plain .begin "s") = .ok next ∧
        next.beginNode? = some (Node.plain .begin "s") ∧
        headless.sequence = ["b", "a"] ∧ next.sequence = ["b", "a"] ∧
        Undisturbed headless next (Node.plain .begin "s") := by
  have ends : headless.EndsPresent := by decide
  have added : headless.addNode (Node.plain .begin "s") =
      .ok (headless.push (Node.plain .begin "s")) := by decide
  have order : headless.sequence = ["b", "a"] := by cbv
  have kept := addNode_undisturbed ends added
  refine ⟨ends, by decide, _, added, by decide, order, ?_, kept⟩
  rw [kept.sequence, order]
  rfl

end Graph

end CrewCanvas
