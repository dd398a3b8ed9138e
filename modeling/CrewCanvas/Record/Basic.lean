/-
Records of a graph, as they are exchanged and saved.

A record holds names where the graph holds kinds and handles, and free data where
the graph holds fields, so not every record is one of a graph.  Saved edges were
accepted when they were drawn and are not judged again, but both ends must be
there, and ids may not repeat.
-/

import CrewCanvas.Graph.Edit
import CrewCanvas.Node.Json

namespace CrewCanvas

structure NodeRecord where
  id : NodeId
  kind : String
  position : Position := {}
  data : Json := .null

structure EdgeRecord where
  id : EdgeId
  source : NodeId
  sourceHandle : Option String := none
  target : NodeId
  targetHandle : Option String := none
  isExecutionLine : Bool := false
  deriving DecidableEq

structure GraphRecord where
  nodes : List NodeRecord := []
  edges : List EdgeRecord := []

/-- A graph saved under a name, with the times of its first and its last save in
milliseconds.  The last save is zero until the graph is saved again. -/
structure SavedGraph where
  name : String
  title : String := ""
  nodes : List NodeRecord := []
  edges : List EdgeRecord := []
  createTime : Int := 0
  updateTime : Int := 0

def SavedGraph.record (saved : SavedGraph) : GraphRecord :=
  { nodes := saved.nodes, edges := saved.edges }

namespace NodeRecord

def ofNode (node : Node) : NodeRecord :=
  { id := node.id
    kind := node.kind.name
    position := node.position
    data := node.data.toJson }

def toNode (record : NodeRecord) : Except Error Node :=
  match NodeKind.ofName? record.kind with
  | none => .error (.invalidKind record.kind)
  | some kind =>
      (NodeData.ofJson kind record.data).map (fun data =>
        { id := record.id, position := record.position, data })

end NodeRecord

namespace EdgeRecord

def ofEdge (edge : Edge) : EdgeRecord :=
  { id := edge.id
    source := edge.source
    sourceHandle := edge.sourceHandle.map Handle.name
    target := edge.target
    targetHandle := edge.targetHandle.map Handle.name
    isExecutionLine := edge.isExecutionLine }

def handle : Option String → Except Error (Option Handle)
  | none => .ok none
  | some name =>
      match Handle.ofName? name with
      | some handle => .ok (some handle)
      | none => .error (.invalidHandle name)

def toEdge (graph : Graph) (record : EdgeRecord) : Except Error Edge := do
  if (graph.node? record.source).isNone then .error (.sourceMissing record.source)
  if (graph.node? record.target).isNone then .error (.targetMissing record.target)
  let sourceHandle ← handle record.sourceHandle
  let targetHandle ← handle record.targetHandle
  return {
    id := record.id
    source := record.source
    sourceHandle
    target := record.target
    targetHandle
    isExecutionLine := record.isExecutionLine }

/-- The edges of records whose ids differ from each other and from the seen ones. -/
def toEdges (graph : Graph) (seen : List EdgeId) : List EdgeRecord → Except Error (List Edge)
  | [] => .ok []
  | record :: rest =>
      if record.id ∈ seen then .error (.edgeTaken record.id)
      else do
        let edge ← toEdge graph record
        let edges ← toEdges graph (record.id :: seen) rest
        return edge :: edges

end EdgeRecord

namespace GraphRecord

def ofGraph (graph : Graph) : GraphRecord :=
  { nodes := graph.nodes.map NodeRecord.ofNode
    edges := graph.edges.map EdgeRecord.ofEdge }

def addNodes (graph : Graph) : List NodeRecord → Except Error Graph
  | [] => .ok graph
  | record :: rest => do
      let node ← record.toNode
      let grown ← graph.addNode node
      addNodes grown rest

def toGraph (record : GraphRecord) : Except Error Graph := do
  let graph ← addNodes Graph.empty record.nodes
  let edges ← EdgeRecord.toEdges graph [] record.edges
  return { graph with edges }

end GraphRecord

end CrewCanvas
