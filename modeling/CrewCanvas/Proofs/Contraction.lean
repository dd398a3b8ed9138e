/-
Splits taken back.

A split that is taken back leaves the graph as it was: without the reroute and without the edge
out of it, the edge into it goes on to where that one went.  A split is refused exactly for a
node that is no reroute, an id in use or an edge that is not there.
-/

import CrewCanvas.Proofs.WellFormed

namespace CrewCanvas

namespace Graph

/-- Deletes a reroute and the edge out of it.  The edge into it ends where that one did. -/
def contract (graph : Graph) (id : EdgeId) (reroute : NodeId) (tailId : EdgeId) : Graph :=
  match graph.edge? tailId with
  | none => graph
  | some tail =>
      { nodes := graph.nodes.filter (fun node => node.id ≠ reroute)
        edges :=
          (graph.edges.filter (fun edge => edge.id ≠ tailId)).map (fun edge =>
            if edge.id = id then
              { edge with target := tail.target, targetHandle := tail.targetHandle }
            else edge) }

structure Subdivides (graph next : Graph) (edge : Edge) (source given : Node) (tailId : EdgeId) :
    Prop where
  nodes : next.nodes = graph.nodes ++ [given.claimedFor (splitClaim source edge.sourceHandle)]
  edges : ∃ front back, graph.edges = front ++ edge :: back ∧
    next.edges =
      front ++ { edge with target := given.id, targetHandle := none } ::
        { id := tailId
          source := given.id
          sourceHandle := none
          target := edge.target
          targetHandle := edge.targetHandle
          isExecutionLine := edge.isExecutionLine } :: back
  untouched : ∀ id, id ≠ edge.id → id ≠ tailId → next.edge? id = graph.edge? id
  contracted : next.contract edge.id given.id tailId = graph

/-! ### The nodes and the edges of a split graph -/

theorem contracted_nodes {graph next : Graph} {given : Node} {line : Option LineKind}
    (nodes : next.nodes = graph.nodes ++ [given.claimedFor line])
    (fresh : given.id ∉ graph.nodeIds) :
    next.nodes.filter (fun node => node.id ≠ given.id) = graph.nodes := by
  have others : (given.claimedFor line).id ∉ (graph.nodes ++ []).map Node.id := by
    rw [Node.id_claimedFor, List.append_nil]
    exact fresh
  have without := filter_others others
  rw [Node.id_claimedFor, List.append_nil] at without
  rw [nodes]
  exact without

section Edges

variable {graph next : Graph} {front back : List Edge} {edge : Edge} {reroute : NodeId}
  {tailId : EdgeId} (parts : graph.edges = front ++ edge :: back)
  (divided : next.edges = front ++ edge.head reroute :: edge.tail reroute tailId :: back)

include parts divided

theorem edge?_of_untouched {id : EdgeId} (other : id ≠ edge.id) (notTail : id ≠ tailId) :
    next.edge? id = graph.edge? id := by
  unfold edge?
  rw [parts, divided, List.find?_append, List.find?_append]
  simp [Edge.head, Edge.tail, other.symm, notTail.symm]

theorem tail_others (absent : tailId ∉ graph.edgeIds) :
    next.edges = (front ++ [edge.head reroute]) ++ edge.tail reroute tailId :: back ∧
      (edge.tail reroute tailId).id ∉ ((front ++ [edge.head reroute]) ++ back).map Edge.id := by
  refine ⟨by simp [divided], ?_⟩
  simpa [edgeIds, parts, Edge.head, Edge.tail] using absent

theorem edge?_tail (absent : tailId ∉ graph.edgeIds) :
    next.edge? tailId = some (edge.tail reroute tailId) := by
  obtain ⟨split, others⟩ := tail_others parts divided absent
  unfold edge?
  rw [split]
  exact find?_others others

/-- Without the second half, and with the first one put back on the old target. -/
theorem contracted_edges (unique : graph.UniqueEdges) (absent : tailId ∉ graph.edgeIds) :
    (next.edges.filter (fun other => other.id ≠ tailId)).map (fun other =>
        if other.id = edge.id then
          { other with target := edge.target, targetHandle := edge.targetHandle }
        else other) =
      graph.edges := by
  obtain ⟨split, others⟩ := tail_others parts divided absent
  have without : next.edges.filter (fun other => other.id ≠ tailId) =
      front ++ edge.head reroute :: back := by
    rw [split]
    exact (filter_others others).trans (by simp)
  have headOthers : (edge.head reroute).id ∉ (front ++ back).map Edge.id := by
    simpa [Edge.head] using unique.others parts
  rw [without, parts]
  exact map_others headOthers

end Edges

/-! ### A split and its way back -/

variable {graph next : Graph} {id tailId : EdgeId} {given : Node}

/-- A split is refused for nothing but its node, its new ids and a missing edge. -/
theorem splitEdge_isOk_iff (ends : graph.EndsPresent) :
    (∃ next, graph.splitEdge id given tailId = .ok next) ↔
      given.kind = .reroute ∧ given.id ∉ graph.nodeIds ∧ tailId ∉ graph.edgeIds ∧
        id ∈ graph.edgeIds := by
  rw [← node?_eq_none_iff, ← edge?_eq_none_iff, mem_edgeIds_iff]
  constructor
  · intro succeeds
    obtain ⟨next, split⟩ := succeeds
    obtain ⟨edge, _, found, _, kind, fresh, absent, _⟩ := splitEdge_eq_ok_iff.mp split
    exact ⟨kind, fresh, absent, edge, found⟩
  · intro allowed
    obtain ⟨kind, fresh, absent, edge, found⟩ := allowed
    obtain ⟨source, leaves⟩ := mem_nodeIds_iff.mp (ends edge (mem_of_edge? found)).1
    exact ⟨_, splitEdge_eq_ok_iff.mpr ⟨edge, source, found, leaves, kind, fresh, absent, rfl⟩⟩

theorem subdivides_of_splitEdge (unique : graph.UniqueEdges)
    (split : graph.splitEdge id given tailId = .ok next) :
    ∃ edge source, graph.edge? id = some edge ∧ graph.node? edge.source = some source ∧
      Subdivides graph next edge source given tailId := by
  obtain ⟨edge, source, found, leaves, _, fresh, absent, shape⟩ := splitEdge_eq_ok_iff.mp split
  obtain ⟨front, back, parts, halves⟩ := Edge.subdivide_parts given.id tailId found
  have divided : next.edges =
      front ++ edge.head given.id :: edge.tail given.id tailId :: back := by
    rw [shape, halves]
  have nodes : next.nodes =
      graph.nodes ++ [given.claimedFor (splitClaim source edge.sourceHandle)] := by
    rw [shape]
  have notTail : tailId ∉ graph.edgeIds := edge?_eq_none_iff.mp absent
  refine ⟨edge, source, found, leaves, nodes, ⟨front, back, parts, divided⟩, ?_, ?_⟩
  · intro id other unlikeTail
    exact edge?_of_untouched parts divided other unlikeTail
  · have without := contracted_nodes nodes (node?_eq_none_iff.mp fresh)
    unfold contract
    rw [edge?_tail parts divided notTail]
    exact congrArg₂ Graph.mk without (contracted_edges parts divided unique notTail)

/-- A split succeeds if its ids are new and its edge is there.  Its graph is the old one with a
reroute in the middle of that edge, and nothing else is lost with the reroute. -/
theorem splitEdge_subdivides (unique : graph.UniqueEdges) (ends : graph.EndsPresent)
    (id tailId : EdgeId) (given : Node) :
    ((∃ next, graph.splitEdge id given tailId = .ok next) ↔
      given.kind = .reroute ∧ given.id ∉ graph.nodeIds ∧ tailId ∉ graph.edgeIds ∧
        id ∈ graph.edgeIds) ∧
    ∀ next, graph.splitEdge id given tailId = .ok next →
      ∃ edge source, graph.edge? id = some edge ∧ graph.node? edge.source = some source ∧
        Subdivides graph next edge source given tailId :=
  ⟨splitEdge_isOk_iff ends, fun _ => subdivides_of_splitEdge unique⟩

def sharedAgent : Graph :=
  { nodes :=
      [Node.plain .begin "s", Node.plain .task "t", Node.plain .task "u", Node.plain .agent "v",
        { id := "q", data := .reroute (some .agent) }]
    edges :=
      [⟨"e1", "v", some .agentOut, "q", none, false⟩, ⟨"e2", "q", none, "t", some .agent, false⟩,
        ⟨"e3", "q", none, "u", some .agent, false⟩,
        ⟨"e4", "s", some .execOut, "t", some .execIn, true⟩] }

/-- The line to the first task is split between the others, with the claim of the reroute that it
comes from.  Neither an id of a task nor that of another line will do. -/
theorem sharedAgent_subdivides :
    sharedAgent.UniqueEdges ∧ sharedAgent.EndsPresent ∧
      (∃ next edge source,
        sharedAgent.splitEdge "e2" (Node.plain .reroute "r") "e5" = .ok next ∧
          next.edgeIds = ["e1", "e2", "e5", "e3", "e4"] ∧
          (next.node? "r").bind Node.claimed? = some .agent ∧
          sharedAgent.edge? "e2" = some edge ∧
          Subdivides sharedAgent next edge source (Node.plain .reroute "r") "e5") ∧
      (¬∃ next, sharedAgent.splitEdge "e2" (Node.plain .reroute "t") "e5" = .ok next) ∧
      ¬∃ next, sharedAgent.splitEdge "e2" (Node.plain .reroute "r") "e3" = .ok next := by
  have unique : sharedAgent.UniqueEdges := by decide
  have ends : sharedAgent.EndsPresent := by decide
  have split := splitEdge_subdivides unique ends "e2"
  refine ⟨unique, ends, ?_, (split "e5" _).1.not.mpr (by decide),
    (split "e3" _).1.not.mpr (by decide)⟩
  obtain ⟨next, made⟩ := (split "e5" (Node.plain .reroute "r")).1.mpr (by decide)
  obtain ⟨edge, source, found, _, subdivides⟩ := (split "e5" _).2 next made
  have ids : (sharedAgent.splitEdge "e2" (Node.plain .reroute "r") "e5").map edgeIds =
      .ok ["e1", "e2", "e5", "e3", "e4"] := by decide
  have claim : (sharedAgent.splitEdge "e2" (Node.plain .reroute "r") "e5").map
      (fun next => (next.node? "r").bind Node.claimed?) = .ok (some .agent) := by decide
  rw [made] at ids claim
  exact ⟨next, edge, source, made, Except.ok.inj ids, Except.ok.inj claim, found, subdivides⟩

end Graph

end CrewCanvas
