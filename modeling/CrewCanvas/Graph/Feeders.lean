/-
What feeds a task: its agent and the tasks before it.

A walk goes back along the edges that enter a handle of the task.  It ends at
every node that is no reroute, and goes on behind a reroute that is claimed for
the kind of line the walk follows, once for each reroute.
-/

import CrewCanvas.Graph.Sequence

namespace CrewCanvas.Graph

/-- The nodes that feed a line through the edges of a stack, in edge order.
Reroutes that were passed already feed nothing more. -/
def feeders (graph : Graph) (line : LineKind) (passed : List NodeId) : List Edge → List Node
  | [] => []
  | edge :: stack =>
      match _found : graph.node? edge.source with
      | none => feeders graph line passed stack
      | some source =>
          if !edge.carries source line then feeders graph line passed stack
          else if source.kind ≠ .reroute then source :: feeders graph line passed stack
          else if _passed : source.claimed? ≠ some line ∨ edge.source ∈ passed then
            feeders graph line passed stack
          else
            feeders graph line (edge.source :: passed) (graph.incoming edge.source ++ stack)
termination_by stack => (graph.unseen passed, stack.length)
decreasing_by
  · exact Prod.Lex.right _ (Nat.lt_succ_self _)
  · exact Prod.Lex.right _ (Nat.lt_succ_self _)
  · exact Prod.Lex.right _ (Nat.lt_succ_self _)
  · exact Prod.Lex.right _ (Nat.lt_succ_self _)
  · exact Prod.Lex.left _ _ (unseen_cons_lt _found (fun member => _passed (Or.inr member)))

def feedersInto (graph : Graph) (id : NodeId) (handle : Handle) (line : LineKind) : List Node :=
  graph.feeders line []
    ((graph.incoming id).filter (fun edge => edge.targetHandle = some handle))

/-- The agent assigned to a task: the first one that feeds its agent input. -/
def agentFor? (graph : Graph) (id : NodeId) : Option Node :=
  (graph.feedersInto id .agent .agent).find? (fun node => node.kind = .agent)

def firstOfEach (seen : List NodeId) : List Node → List Node
  | [] => []
  | node :: rest =>
      if node.id ∈ seen then firstOfEach seen rest
      else node :: firstOfEach (node.id :: seen) rest

/-- The other tasks that feed the execution input of a task, each once. -/
def predecessors (graph : Graph) (id : NodeId) : List Node :=
  firstOfEach []
    ((graph.feedersInto id .execIn .execution).filter
      (fun node => node.kind = .task ∧ node.id ≠ id))

end CrewCanvas.Graph
