/-
The crew graph: nodes and edges in the order in which they were added.

A graph is a snapshot.  Every change makes a new one, so a caller decides which
snapshot is current.  The order matters to the task sequence and the artifacts.
-/

import CrewCanvas.Edge.Basic

namespace CrewCanvas

structure Graph where
  nodes : List Node := []
  edges : List Edge := []
  deriving DecidableEq

namespace Graph

def empty : Graph := {}

def node? (graph : Graph) (id : NodeId) : Option Node :=
  graph.nodes.find? (fun node => node.id = id)

def edge? (graph : Graph) (id : EdgeId) : Option Edge :=
  graph.edges.find? (fun edge => edge.id = id)

def beginNode? (graph : Graph) : Option Node :=
  graph.nodes.find? (fun node => node.kind = .begin)

def agents (graph : Graph) : List Node :=
  graph.nodes.filter (fun node => node.kind = .agent)

def tasks (graph : Graph) : List Node :=
  graph.nodes.filter (fun node => node.kind = .task)

def outgoing (graph : Graph) (id : NodeId) : List Edge :=
  graph.edges.filter (fun edge => edge.source = id)

def incoming (graph : Graph) (id : NodeId) : List Edge :=
  graph.edges.filter (fun edge => edge.target = id)

def nodeIds (graph : Graph) : List NodeId := graph.nodes.map Node.id

def edgeIds (graph : Graph) : List EdgeId := graph.edges.map Edge.id

def numEq (left right : Graph) : Bool :=
  left.nodes.length == right.nodes.length &&
    (left.nodes.zip right.nodes).all (fun pair => pair.1.numEq pair.2) &&
    left.edges = right.edges

def UniqueNodes (graph : Graph) : Prop := graph.nodeIds.Nodup

def UniqueEdges (graph : Graph) : Prop := graph.edgeIds.Nodup

def EndsPresent (graph : Graph) : Prop :=
  ∀ edge ∈ graph.edges, edge.source ∈ graph.nodeIds ∧ edge.target ∈ graph.nodeIds

instance (graph : Graph) : Decidable graph.UniqueNodes :=
  inferInstanceAs (Decidable graph.nodeIds.Nodup)

instance (graph : Graph) : Decidable graph.UniqueEdges :=
  inferInstanceAs (Decidable graph.edgeIds.Nodup)

instance (graph : Graph) : Decidable graph.EndsPresent :=
  inferInstanceAs (Decidable (∀ edge ∈ graph.edges, _ ∧ _))

theorem id_of_node? {graph : Graph} {id : NodeId} {node : Node}
    (found : graph.node? id = some node) : node.id = id := by
  simpa using List.find?_some found

theorem node?_id {graph : Graph} {id : NodeId} {node : Node}
    (found : graph.node? id = some node) : graph.node? node.id = some node := by
  rw [id_of_node? found]
  exact found

theorem mem_of_node? {graph : Graph} {id : NodeId} {node : Node}
    (found : graph.node? id = some node) : node ∈ graph.nodes :=
  List.mem_of_find?_eq_some found

theorem mem_of_beginNode? {graph : Graph} {first : Node}
    (found : graph.beginNode? = some first) : first ∈ graph.nodes :=
  List.mem_of_find?_eq_some found

theorem kind_of_beginNode? {graph : Graph} {first : Node}
    (found : graph.beginNode? = some first) : first.kind = .begin := by
  simpa using List.find?_some found

theorem mem_of_edge? {graph : Graph} {id : EdgeId} {edge : Edge}
    (found : graph.edge? id = some edge) : edge ∈ graph.edges :=
  List.mem_of_find?_eq_some found

theorem node?_eq_none_iff {graph : Graph} {id : NodeId} :
    graph.node? id = none ↔ id ∉ graph.nodeIds := by
  simp [node?, nodeIds]

theorem mem_nodeIds_iff {graph : Graph} {id : NodeId} :
    id ∈ graph.nodeIds ↔ ∃ node, graph.node? id = some node := by
  rw [← Option.isSome_iff_exists]
  simp [node?, nodeIds]

theorem mem_edgeIds_iff {graph : Graph} {id : EdgeId} :
    id ∈ graph.edgeIds ↔ ∃ edge, graph.edge? id = some edge := by
  rw [← Option.isSome_iff_exists]
  simp [edge?, edgeIds]

theorem mem_tasks_iff {graph : Graph} {node : Node} :
    node ∈ graph.tasks ↔ node ∈ graph.nodes ∧ node.kind = .task := by
  simp [tasks]

theorem mem_agents_iff {graph : Graph} {node : Node} :
    node ∈ graph.agents ↔ node ∈ graph.nodes ∧ node.kind = .agent := by
  simp [agents]

theorem node?_of_mem {graph : Graph} {node : Node} (unique : graph.UniqueNodes)
    (member : node ∈ graph.nodes) : graph.node? node.id = some node := by
  obtain ⟨nodes, edges⟩ := graph
  change (nodes.map Node.id).Nodup at unique
  change nodes.find? (fun other => other.id = node.id) = some node
  induction nodes with
  | nil => cases member
  | cons first rest ih =>
      rw [List.map_cons, List.nodup_cons] at unique
      rcases List.mem_cons.mp member with same | later
      · subst first
        exact List.find?_cons_of_pos (by simp)
      · have different : first.id ≠ node.id := by
          intro same
          exact unique.1 (same ▸ List.mem_map_of_mem later)
        rw [List.find?_cons_of_neg (by simpa using different)]
        exact ih later unique.2

/-! ### Nodes a walk has not seen -/

/-- The number of nodes whose id a walk has not seen: the measure of a walk. -/
def unseen (graph : Graph) (seen : List NodeId) : Nat :=
  (graph.nodes.filter (fun node => node.id ∉ seen)).length

theorem unseen_le (graph : Graph) {seen later : List NodeId} (grows : ∀ id ∈ seen, id ∈ later) :
    graph.unseen later ≤ graph.unseen seen := by
  unfold unseen
  rw [← List.countP_eq_length_filter, ← List.countP_eq_length_filter]
  apply List.countP_mono_left
  intro node _ unmet
  rw [decide_eq_true_eq] at unmet ⊢
  exact fun met => unmet (grows node.id met)

theorem unseen_cons_lt {graph : Graph} {seen : List NodeId} {id : NodeId} {node : Node}
    (found : graph.node? id = some node) (fresh : id ∉ seen) :
    graph.unseen (id :: seen) < graph.unseen seen := by
  have split : graph.nodes.filter (fun node => node.id ∉ id :: seen) =
      (graph.nodes.filter (fun node => node.id ∉ seen)).filter (fun node => node.id ≠ id) := by
    rw [List.filter_filter]
    congr 1
    funext other
    simp
  unfold unseen
  rw [split]
  apply List.length_filter_lt_length_iff_exists.mpr
  refine ⟨node, ?_, ?_⟩
  · simp [mem_of_node? found, id_of_node? found, fresh]
  · simp [id_of_node? found]

end Graph

end CrewCanvas
