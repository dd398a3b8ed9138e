/-
What splitting an edge does to a graph.

A split puts one reroute behind the nodes and one edge behind the split edge.  The
split edge goes into the reroute, the new one out of it, and nothing else leaves or
enters the reroute.
-/

import CrewCanvas.Graph.Edit

namespace CrewCanvas

/-! ### Pieces of a split -/

theorem updateFirst_append {id : NodeId} {change : Node → Node} {node : Node} {nodes : List Node}
    (fresh : id ∉ nodes.map Node.id) (same : node.id = id) :
    updateFirst id change (nodes ++ [node]) = nodes ++ [change node] := by
  induction nodes with
  | nil => simp [updateFirst, same]
  | cons first rest ih =>
      rw [List.map_cons, List.mem_cons, not_or] at fresh
      rw [List.cons_append, updateFirst, if_neg (fun equal => fresh.1 equal.symm), ih fresh.2,
        List.cons_append]

theorem Edge.subdivide_parts (reroute : NodeId) (tailId : EdgeId) {id : EdgeId} {edge : Edge}
    {edges : List Edge} (found : edges.find? (fun edge => edge.id = id) = some edge) :
    ∃ front back, edges = front ++ edge :: back ∧
      Edge.subdivide id reroute tailId edges =
        front ++ edge.head reroute :: edge.tail reroute tailId :: back := by
  induction edges with
  | nil => cases found
  | cons first rest ih =>
      by_cases same : first.id = id
      · rw [List.find?_cons_of_pos (by simpa using same)] at found
        cases found
        exact ⟨[], rest, rfl, if_pos same⟩
      · rw [List.find?_cons_of_neg (by simpa using same)] at found
        obtain ⟨front, back, parts, divided⟩ := ih found
        refine ⟨first :: front, back, congrArg (first :: ·) parts, ?_⟩
        rw [Edge.subdivide, if_neg same, divided, List.cons_append]

/-- A node after a split has claimed it; the first claim stands. -/
def Node.claimedFor (node : Node) : Option LineKind → Node
  | none => node
  | some line => { node with data := node.data.claim line }

namespace Node

@[simp] theorem id_claimedFor (node : Node) (line : Option LineKind) :
    (node.claimedFor line).id = node.id := by
  cases line <;> rfl

@[simp] theorem kind_claimedFor (node : Node) (line : Option LineKind) :
    (node.claimedFor line).kind = node.kind := by
  cases line with
  | none => rfl
  | some line => exact NodeData.kind_claim node.data line

theorem claimed?_claimedFor {node : Node} (kind : node.kind = .reroute) (line : Option LineKind) :
    (node.claimedFor line).claimed? = node.claimed?.or line := by
  obtain ⟨id, position, data⟩ := node
  cases data with
  | reroute claimed => cases claimed <;> cases line <;> rfl
  | begin => cases kind
  | agent data => cases kind
  | task data => cases kind

end Node

theorem Graph.claim?_append {graph : Graph} {reroute : Node} (fresh : graph.node? reroute.id = none)
    (line : Option LineKind) :
    ({ graph with nodes := graph.nodes ++ [reroute] } : Graph).claim? reroute.id line =
      { graph with nodes := graph.nodes ++ [reroute.claimedFor line] } := by
  cases line with
  | none => rfl
  | some line =>
      have absent : reroute.id ∉ graph.nodes.map Node.id := Graph.node?_eq_none_iff.mp fresh
      simp only [Graph.claim?, Graph.claim, updateFirst_append absent rfl, Node.claimedFor]

namespace Graph

theorem splitClaim_reroute {source : Node} {handle : Option Handle}
    (kind : source.kind = .reroute) : splitClaim source handle = source.claimed? :=
  if_pos kind

theorem addNode_eq_ok_iff {graph next : Graph} {node : Node} :
    graph.addNode node = .ok next ↔
      graph.node? node.id = none ∧ (node.kind = .begin → graph.beginNode? = none) ∧
        next = { graph with nodes := graph.nodes ++ [node] } := by
  unfold addNode
  cases graph.node? node.id with
  | some other => simp
  | none =>
      by_cases begins : node.kind = .begin
      · cases graph.beginNode? with
        | some first => simp [begins]
        | none => simp [begins, eq_comm]
      · simp [begins, eq_comm]

theorem node?_append {graph next : Graph} {node other : Node} {id : NodeId}
    (nodes : next.nodes = graph.nodes ++ [node]) (found : graph.node? id = some other) :
    next.node? id = some other := by
  unfold node? at found ⊢
  rw [nodes, List.find?_append, found, Option.some_or]

theorem node?_append_self {graph next : Graph} {node : Node}
    (nodes : next.nodes = graph.nodes ++ [node]) (fresh : graph.node? node.id = none) :
    next.node? node.id = some node := by
  unfold node? at fresh ⊢
  rw [nodes, List.find?_append, fresh, Option.none_or]
  exact List.find?_cons_of_pos (by simp)

/-! ### The result of a split -/

theorem splitEdge_eq_ok_iff {graph next : Graph} {id tailId : EdgeId} {given : Node} :
    graph.splitEdge id given tailId = .ok next ↔
      ∃ edge source, graph.edge? id = some edge ∧ graph.node? edge.source = some source ∧
        given.kind = .reroute ∧ graph.node? given.id = none ∧ graph.edge? tailId = none ∧
        next =
          { nodes := graph.nodes ++ [given.claimedFor (splitClaim source edge.sourceHandle)]
            edges := Edge.subdivide id given.id tailId graph.edges } := by
  constructor
  · intro split
    unfold splitEdge at split
    split at split
    · cases split
    · rename_i isReroute
      split at split
      · cases split
      · cases split
      · rename_i edge absent found
        split at split
        · cases split
        · rename_i source leaves
          cases grown : graph.addNode given with
          | error error =>
              rw [grown] at split
              cases split
          | ok larger =>
              rw [grown] at split
              obtain ⟨fresh, _, shape⟩ := addNode_eq_ok_iff.mp grown
              subst shape
              simp only [Except.map, claim?_append fresh] at split
              cases split
              exact ⟨edge, source, found, leaves, Decidable.of_not_not isReroute, fresh, absent, rfl⟩
  · rintro ⟨edge, source, found, leaves, kind, fresh, absent, rfl⟩
    have grown : graph.addNode given = .ok { graph with nodes := graph.nodes ++ [given] } :=
      addNode_eq_ok_iff.mpr ⟨fresh, by simp [kind], rfl⟩
    unfold splitEdge
    rw [if_neg (by simp [kind]), found, absent]
    simp only [leaves, grown, Except.map, claim?_append fresh]

structure Subdivision (graph next : Graph) (given : Node) where
  front : List Edge
  edge : Edge
  back : List Edge
  source : Node
  tailId : EdgeId
  reroute : Node
  edges_eq : graph.edges = front ++ edge :: back
  nextEdges : next.edges = front ++ edge.head reroute.id :: edge.tail reroute.id tailId :: back
  nextNodes : next.nodes = graph.nodes ++ [reroute]
  leaves : graph.node? edge.source = some source
  kind : reroute.kind = .reroute
  fresh : graph.node? reroute.id = none
  claimed : reroute.claimed? = given.claimed?.or (splitClaim source edge.sourceHandle)

theorem splitEdge_subdivision {graph next : Graph} {id tailId : EdgeId} {given : Node}
    (split : graph.splitEdge id given tailId = .ok next) :
    ∃ parts : Subdivision graph next given, graph.edge? id = some parts.edge := by
  obtain ⟨edge, source, found, leaves, kind, fresh, _, rfl⟩ := splitEdge_eq_ok_iff.mp split
  obtain ⟨front, back, parts, divided⟩ := Edge.subdivide_parts given.id tailId found
  exact ⟨{
    front, edge, back, source, tailId
    reroute := given.claimedFor (splitClaim source edge.sourceHandle)
    edges_eq := parts
    nextEdges := by simpa using divided
    nextNodes := rfl
    leaves
    kind := by simpa using kind
    fresh := by simpa using fresh
    claimed := Node.claimed?_claimedFor kind _ }, found⟩

namespace Subdivision

variable {graph next : Graph} {given : Node}

theorem node?_reroute (parts : Subdivision graph next given) :
    next.node? parts.reroute.id = some parts.reroute :=
  node?_append_self parts.nextNodes parts.fresh

theorem node?_of_ne (parts : Subdivision graph next given) {id : NodeId}
    (other : id ≠ parts.reroute.id) : next.node? id = graph.node? id := by
  unfold node?
  rw [parts.nextNodes, List.find?_append]
  simp [Ne.symm other]

theorem ne_of_node? (parts : Subdivision graph next given) {id : NodeId} {node : Node}
    (found : graph.node? id = some node) : id ≠ parts.reroute.id := by
  intro same
  rw [same, parts.fresh] at found
  cases found

theorem node?_of_some (parts : Subdivision graph next given) {id : NodeId} {node : Node}
    (found : graph.node? id = some node) : next.node? id = some node :=
  node?_append parts.nextNodes found

theorem ne_of_kind (parts : Subdivision graph next given) {id : NodeId} {node : Node}
    (found : next.node? id = some node) (kind : node.kind ≠ .reroute) :
    id ≠ parts.reroute.id := by
  intro same
  rw [same, parts.node?_reroute] at found
  cases found
  exact kind parts.kind

theorem ne_of_mem_nodeIds (parts : Subdivision graph next given) {id : NodeId}
    (member : id ∈ graph.nodeIds) : id ≠ parts.reroute.id := by
  intro same
  exact node?_eq_none_iff.mp parts.fresh (same ▸ member)

theorem edge_mem (parts : Subdivision graph next given) : parts.edge ∈ graph.edges := by
  rw [parts.edges_eq]
  exact List.mem_append_right _ List.mem_cons_self

theorem front_mem (parts : Subdivision graph next given) {edge : Edge}
    (member : edge ∈ parts.front) : edge ∈ graph.edges := by
  rw [parts.edges_eq]
  exact List.mem_append_left _ member

theorem back_mem (parts : Subdivision graph next given) {edge : Edge}
    (member : edge ∈ parts.back) : edge ∈ graph.edges := by
  rw [parts.edges_eq]
  exact List.mem_append_right _ (List.mem_cons_of_mem _ member)

theorem mem_nextEdges (parts : Subdivision graph next given) {edge : Edge}
    (member : edge ∈ next.edges) :
    edge ∈ graph.edges ∨ edge = parts.edge.head parts.reroute.id ∨
      edge = parts.edge.tail parts.reroute.id parts.tailId := by
  rw [parts.nextEdges] at member
  rcases List.mem_append.mp member with inFront | rest
  · exact Or.inl (parts.front_mem inFront)
  · rcases List.mem_cons.mp rest with isHead | rest
    · exact Or.inr (Or.inl isHead)
    · rcases List.mem_cons.mp rest with isTail | inBack
      · exact Or.inr (Or.inr isTail)
      · exact Or.inl (parts.back_mem inBack)

/-! ### What a split keeps -/

theorem nodeIds_eq (parts : Subdivision graph next given) :
    next.nodeIds = graph.nodeIds ++ [parts.reroute.id] := by
  unfold nodeIds
  rw [parts.nextNodes, List.map_append, List.map_singleton]

theorem uniqueNodes (parts : Subdivision graph next given) (unique : graph.UniqueNodes) :
    next.UniqueNodes := by
  unfold UniqueNodes
  rw [parts.nodeIds_eq]
  refine List.nodup_append.mpr ⟨unique, by simp, ?_⟩
  intro id member other last
  rw [List.mem_singleton.mp last]
  exact parts.ne_of_mem_nodeIds member

theorem endsPresent (parts : Subdivision graph next given) (ends : graph.EndsPresent) :
    next.EndsPresent := by
  intro edge member
  rw [parts.nodeIds_eq]
  simp only [List.mem_append, List.mem_singleton]
  have ofEdge := ends parts.edge parts.edge_mem
  rcases parts.mem_nextEdges member with old | isHead | isTail
  · exact ⟨Or.inl (ends edge old).1, Or.inl (ends edge old).2⟩
  · subst edge
    exact ⟨Or.inl ofEdge.1, Or.inr rfl⟩
  · subst edge
    exact ⟨Or.inr rfl, Or.inl ofEdge.2⟩

theorem filter_nodes (parts : Subdivision graph next given) {keep : Node → Bool}
    (drops : keep parts.reroute = false) : next.nodes.filter keep = graph.nodes.filter keep := by
  rw [parts.nextNodes, List.filter_append, List.filter_cons_of_neg (by simp [drops]),
    List.filter_nil, List.append_nil]

theorem tasks_eq (parts : Subdivision graph next given) : next.tasks = graph.tasks :=
  parts.filter_nodes (by simp [parts.kind])

theorem agents_eq (parts : Subdivision graph next given) : next.agents = graph.agents :=
  parts.filter_nodes (by simp [parts.kind])

theorem beginNode?_eq (parts : Subdivision graph next given) :
    next.beginNode? = graph.beginNode? := by
  unfold beginNode?
  rw [parts.nextNodes, List.find?_append]
  simp [parts.kind]

end Subdivision

end Graph

end CrewCanvas
