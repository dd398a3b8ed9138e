/-
A graph in words: its nodes, its edges and the order of its tasks, one a line.
-/

import CrewCanvas.Graph.Sequence

namespace CrewCanvas

namespace Node

def label (node : Node) : String :=
  match node.name?, node.claimed? with
  | some name, _ => " " ++ name
  | none, some line => " <" ++ line.name ++ ">"
  | none, none => ""

def summaryLine (node : Node) : String :=
  "[" ++ node.id ++ "]" ++ node.label ++ " (type: " ++ node.kind.name ++ ")"

end Node

namespace Edge

def handleLabel : Option Handle → String
  | none => "*"
  | some handle => handle.name

def summaryLine (edge : Edge) : String :=
  edge.source ++ "." ++ handleLabel edge.sourceHandle ++ " --[" ++ edge.line.name ++ "]--> " ++
    edge.target ++ "." ++ handleLabel edge.targetHandle ++ " (id: " ++ edge.id ++ ")"

end Edge

namespace Graph

def sequenceLine (graph : Graph) (place : Nat × NodeId) : String :=
  let name := ((graph.node? place.2).bind Node.name?).getD ""
  toString (place.1 + 1) ++ ". " ++ name ++ " (" ++ place.2 ++ ")"

def summaryLines (graph : Graph) : List String :=
  ["=== Crew Graph ===",
    "Nodes: " ++ toString graph.nodes.length ++ ", Edges: " ++ toString graph.edges.length,
    "",
    "--- Nodes ---"] ++
  graph.nodes.map Node.summaryLine ++
  ["", "--- Edges ---"] ++
  graph.edges.map Edge.summaryLine ++
  ["", "--- Task Sequence ---"] ++
  ((List.range graph.sequence.length).zip graph.sequence).map graph.sequenceLine

def summary (graph : Graph) : String := Text.joinWith "\n" graph.summaryLines

end Graph

end CrewCanvas
