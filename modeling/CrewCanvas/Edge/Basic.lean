/-
Edges between the handles of nodes.

A task has the inputs `exec-in` and `agent` and the outputs `exec-out` and
`agent-out`; a begin node has the output `exec-out`, an agent `agent-out`.  The
handles of a reroute have no name.
-/

import CrewCanvas.Node.Basic

namespace CrewCanvas

abbrev EdgeId := String

inductive Handle
  | execIn
  | agent
  | execOut
  | agentOut
  deriving DecidableEq

namespace Handle

def all : List Handle := [execIn, agent, execOut, agentOut]

def name : Handle → String
  | execIn => "exec-in"
  | agent => "agent"
  | execOut => "exec-out"
  | agentOut => "agent-out"

def ofName? (name : String) : Option Handle :=
  all.find? (fun handle => handle.name = name)

end Handle

structure Connection where
  source : NodeId
  sourceHandle : Option Handle
  target : NodeId
  targetHandle : Option Handle
  deriving DecidableEq

structure LineStyle where
  animated : Bool
  stroke : String
  dashArray : String
  strokeWidth : Nat

namespace LineKind

def style : LineKind → LineStyle
  | execution => { animated := true, stroke := "white", dashArray := "5,5", strokeWidth := 2 }
  | agent => { animated := false, stroke := "yellow", dashArray := "none", strokeWidth := 2 }

def ofExecution (isExecution : Bool) : LineKind :=
  if isExecution then execution else agent

def isExecution : LineKind → Bool
  | execution => true
  | agent => false

end LineKind

/-- An accepted edge.  Its kind was settled when it was accepted. -/
structure Edge where
  id : EdgeId
  source : NodeId
  sourceHandle : Option Handle
  target : NodeId
  targetHandle : Option Handle
  isExecutionLine : Bool
  deriving DecidableEq

namespace Edge

def ofConnection (id : EdgeId) (connection : Connection) (line : LineKind) : Edge :=
  { id
    source := connection.source
    sourceHandle := connection.sourceHandle
    target := connection.target
    targetHandle := connection.targetHandle
    isExecutionLine := line.isExecution }

def connection (edge : Edge) : Connection :=
  { source := edge.source
    sourceHandle := edge.sourceHandle
    target := edge.target
    targetHandle := edge.targetHandle }

def line (edge : Edge) : LineKind := LineKind.ofExecution edge.isExecutionLine

def touches (edge : Edge) (id : NodeId) : Bool :=
  edge.source == id || edge.target == id

end Edge

end CrewCanvas
