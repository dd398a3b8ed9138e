/-
The order of the tasks.

A walk follows control flow from the begin node, depth first and along the edges
of a node in their order, and meets each task once, where it is first reached.
The tasks that it does not reach follow in the order of the nodes.
-/

import CrewCanvas.Graph.Basic

namespace CrewCanvas

namespace Edge

/-- Whether an edge can carry a kind of line out of its source.  Of all nodes
only a task has two outputs, each with its own kind. -/
def carries (edge : Edge) (source : Node) (line : LineKind) : Bool :=
  if source.kind = .task then
    match line with
    | .execution => edge.sourceHandle != some .agentOut
    | .agent => edge.sourceHandle != some .execOut
  else true

/-- Whether control flow goes along an edge: into the execution input of a task,
or into a reroute claimed for execution. -/
def leadsOn (edge : Edge) (source target : Node) : Bool :=
  source.kind != .agent && edge.carries source .execution &&
    match target.kind with
    | .task => edge.targetHandle == some .execIn
    | .reroute => target.claimed? == some .execution
    | _ => false

end Edge

/-- The output of a task that never carries a kind of line. -/
def LineKind.barredOutput : LineKind → Handle
  | execution => .agentOut
  | agent => .execOut

theorem Edge.carries_iff {edge : Edge} {source : Node} {line : LineKind} :
    edge.carries source line = true ↔
      (source.kind = .task → edge.sourceHandle ≠ some line.barredOutput) := by
  unfold Edge.carries
  cases line <;> by_cases task : source.kind = .task <;> simp [task, LineKind.barredOutput]

namespace Graph

def entered? (graph : Graph) (source : Node) (edge : Edge) : Option Node :=
  (graph.node? edge.target).filter (fun target => edge.leadsOn source target)

def successors (graph : Graph) (source : Node) : List NodeId :=
  (graph.outgoing source.id).filterMap (fun edge => (graph.entered? source edge).map Node.id)

/-- The tasks that a walk meets from a stack of ids, leaving out seen nodes. -/
def walk (graph : Graph) (seen : List NodeId) : List NodeId → List NodeId
  | [] => []
  | id :: stack =>
      if _known : id ∈ seen then walk graph seen stack
      else
        match _found : graph.node? id with
        | none => walk graph seen stack
        | some node =>
            let next := (graph.successors node).filter (fun target => target ∉ id :: seen)
            let later := walk graph (id :: seen) (next ++ stack)
            if node.kind = .task then id :: later else later
termination_by stack => (graph.unseen seen, stack.length)
decreasing_by
  · exact Prod.Lex.right _ (Nat.lt_succ_self _)
  · exact Prod.Lex.right _ (Nat.lt_succ_self _)
  · exact Prod.Lex.left _ _ (unseen_cons_lt _found _known)

def reached (graph : Graph) : List NodeId :=
  match graph.beginNode? with
  | none => []
  | some first => graph.walk [] [first.id]

/-- Every task once: the reached ones in the order of the walk, then the others. -/
def sequence (graph : Graph) : List NodeId :=
  let reached := graph.reached
  reached ++ (graph.tasks.map Node.id).filter (fun id => id ∉ reached)

end Graph

end CrewCanvas
