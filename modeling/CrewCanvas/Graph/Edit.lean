/-
Changes of a graph.

A change that is refused answers why and makes no snapshot.  Removing a node
removes the edges that touch it; accepting an edge may claim the reroute it
enters; splitting an edge puts a reroute in its middle and keeps its place in
the order of the edges.
-/

import CrewCanvas.Graph.Rules

namespace CrewCanvas

def updateFirst (id : NodeId) (change : Node → Node) : List Node → List Node
  | [] => []
  | node :: rest =>
      if node.id = id then change node :: rest else node :: updateFirst id change rest

namespace Edge

def head (edge : Edge) (reroute : NodeId) : Edge :=
  { edge with target := reroute, targetHandle := none }

def tail (edge : Edge) (reroute : NodeId) (id : EdgeId) : Edge :=
  { edge with id, source := reroute, sourceHandle := none }

/-- Replaces the first edge with an id by its two halves. -/
def subdivide (id : EdgeId) (reroute : NodeId) (tailId : EdgeId) : List Edge → List Edge
  | [] => []
  | edge :: rest =>
      if edge.id = id then edge.head reroute :: edge.tail reroute tailId :: rest
      else edge :: subdivide id reroute tailId rest

end Edge

namespace Graph

def addNode (graph : Graph) (node : Node) : Except Error Graph :=
  match graph.node? node.id with
  | some _ => .error (.nodeTaken node.id)
  | none =>
      match (if node.kind = .begin then graph.beginNode? else none) with
      | some first => .error (.beginTaken first.id)
      | none => .ok { graph with nodes := graph.nodes ++ [node] }

def removeNode (graph : Graph) (id : NodeId) : Except Error Graph :=
  match graph.node? id with
  | none => .error (.nodeNotFound id)
  | some _ =>
      .ok
        { nodes := graph.nodes.filter (fun node => node.id ≠ id)
          edges := graph.edges.filter (fun edge => !edge.touches id) }

def claim (graph : Graph) (id : NodeId) (line : LineKind) : Graph :=
  { graph with
    nodes := updateFirst id (fun node => { node with data := node.data.claim line }) graph.nodes }

def claim? (graph : Graph) (id : NodeId) : Option LineKind → Graph
  | none => graph
  | some line => graph.claim id line

def addEdge (graph : Graph) (connection : Connection) (id : EdgeId) : Graph × Verdict :=
  let decision := graph.judge connection
  match decision.verdict with
  | .rejected => (graph, .rejected)
  | .accepted line =>
      let claimed := graph.claim? connection.target decision.claim
      ({ claimed with edges := claimed.edges ++ [Edge.ofConnection id connection line] },
        .accepted line)

def removeEdge (graph : Graph) (id : EdgeId) : Except Error Graph :=
  match graph.edge? id with
  | none => .error (.edgeNotFound id)
  | some _ => .ok { graph with edges := graph.edges.filter (fun edge => edge.id ≠ id) }

def updateNode (graph : Graph) (id : NodeId) (field value : String) : Except Error Graph :=
  match graph.node? id with
  | none => .error (.nodeNotFound id)
  | some node =>
      (node.data.setField field value).map (fun data =>
        { graph with nodes := updateFirst id (fun node => { node with data }) graph.nodes })

/-- The claim a reroute takes when it is put into an edge with the given source. -/
def splitClaim (source : Node) (handle : Option Handle) : Option LineKind :=
  if source.kind = .reroute then source.claimed? else source.feeds handle

def splitEdge (graph : Graph) (id : EdgeId) (reroute : Node) (tailId : EdgeId) :
    Except Error Graph :=
  if reroute.kind ≠ .reroute then .error (.notReroute reroute.id)
  else
    match graph.edge? tailId, graph.edge? id with
    | some _, _ => .error (.edgeTaken tailId)
    | none, none => .error (.edgeNotFound id)
    | none, some edge =>
        match graph.node? edge.source with
        | none => .error (.nodeNotFound edge.source)
        | some source =>
            (graph.addNode reroute).map (fun grown =>
              let claimed := grown.claim? reroute.id (splitClaim source edge.sourceHandle)
              { claimed with edges := Edge.subdivide id reroute.id tailId claimed.edges })

end Graph

end CrewCanvas
