/-
The connection rules: whether a proposed edge may enter a graph, how its line is
drawn, and what an unclaimed reroute takes from it.

The first rule that applies decides.  Any edge may enter a reroute.  An edge out
of a reroute needs a claim that fits the handle it enters.  An agent feeds the
agent input of a task; a task or the begin node feeds the execution input of a
task.  Everything else is rejected.
-/

import CrewCanvas.Graph.Basic

namespace CrewCanvas

inductive Verdict
  | accepted (line : LineKind)
  | rejected
  deriving DecidableEq

namespace Verdict

def isAccepted : Verdict → Bool
  | accepted _ => true
  | rejected => false

def name : Verdict → String
  | accepted line => line.name
  | rejected => "rejected"

end Verdict

/-- A verdict, with the claim an unclaimed reroute takes from the edge. -/
structure Decision where
  verdict : Verdict
  claim : Option LineKind
  deriving DecidableEq

namespace Decision

def reject : Decision := { verdict := .rejected, claim := none }

end Decision

namespace Node

/-- The kind of line a node feeds through one of its handles. -/
def feeds (source : Node) (handle : Option Handle) : Option LineKind :=
  match source.kind, handle with
  | .begin, _ => some .execution
  | .task, some .execOut => some .execution
  | .agent, _ => some .agent
  | .task, some .agentOut => some .agent
  | _, _ => none

/-- The line drawn from a node to a node.  It carries execution into an execution
input and out of a reroute claimed for execution. -/
def lineTo (source target : Node) (handle : Option Handle) : LineKind :=
  let claimsExecution := source.claimed? == some .execution
  LineKind.ofExecution
    (handle == some .execIn || (claimsExecution && target.kind == .reroute) ||
      (source.kind == .reroute && claimsExecution))

def reroutesTo (source : Node) (handle : Option Handle) : Bool :=
  match source.claimed? with
  | some .execution => handle == some .execIn
  | some .agent => handle == some .agent
  | none => false

def joins (source target : Node) (handle : Option Handle) : Bool :=
  match source.kind, target.kind, handle with
  | .agent, .task, some .agent => true
  | .task, .task, some .execIn => true
  | .begin, .task, some .execIn => true
  | _, _, _ => false

def judge (source target : Node) (connection : Connection) : Decision :=
  let line := source.lineTo target connection.targetHandle
  if target.kind = .reroute then
    { verdict := .accepted line
      claim :=
        match target.claimed? with
        | some _ => none
        | none => source.feeds connection.sourceHandle }
  else
    let accepted :=
      if source.kind = .reroute then source.reroutesTo connection.targetHandle
      else source.joins target connection.targetHandle
    if accepted then { verdict := .accepted line, claim := none } else Decision.reject

end Node

namespace Graph

/-- The decision about a proposed edge.  An edge without a node at both ends is
rejected. -/
def judge (graph : Graph) (connection : Connection) : Decision :=
  match graph.node? connection.source, graph.node? connection.target with
  | some source, some target => source.judge target connection
  | _, _ => Decision.reject

def validate (graph : Graph) (connection : Connection) : Verdict :=
  (graph.judge connection).verdict

end Graph

end CrewCanvas
