/-
The task order as a depth-first search.

A visit marks its node, emits it if it is a task, and then visits what its edges lead to,
one edge after the other in their order, each with the marks that the one before has left.
The walk behind the task order keeps a stack instead and never returns; it meets the tasks
that a visit emits, in the same order.
-/

import CrewCanvas.Proofs.TaskOrder

namespace CrewCanvas.Graph

/-! ### Visits -/

/-- What a visit leaves behind: the tasks that it has emitted, and all marked ids. -/
structure Visited (marked : List NodeId) where
  emitted : List NodeId
  marks : List NodeId
  keeps : ∀ id ∈ marked, id ∈ marks

def Visited.nothing (marked : List NodeId) : Visited marked :=
  { emitted := [], marks := marked, keeps := fun _ member => member }

mutual

def visit (graph : Graph) (marked : List NodeId) (id : NodeId) : Visited marked :=
  if _known : id ∈ marked then Visited.nothing marked
  else
    match _found : graph.node? id with
    | none => Visited.nothing marked
    | some node =>
        let behind := follow graph (id :: marked) node (graph.outgoing id)
        { emitted := (if node.kind = .task then [id] else []) ++ behind.emitted
          marks := behind.marks
          keeps := fun other member => behind.keeps other (List.mem_cons_of_mem id member) }
termination_by (graph.unseen marked, 0)
decreasing_by exact Prod.Lex.left _ _ (unseen_cons_lt _found _known)

def follow (graph : Graph) (marked : List NodeId) (source : Node) : List Edge → Visited marked
  | [] => Visited.nothing marked
  | edge :: rest =>
      match graph.entered? source edge with
      | none => follow graph marked source rest
      | some target =>
          let first := visit graph marked target.id
          let others := follow graph first.marks source rest
          { emitted := first.emitted ++ others.emitted
            marks := others.marks
            keeps := fun id member => others.keeps id (first.keeps id member) }
termination_by edges => (graph.unseen marked, edges.length + 1)
decreasing_by
  · exact Prod.Lex.right _ (Nat.lt_succ_self _)
  · exact Prod.Lex.right _ (Nat.succ_pos _)
  · exact Prod.Lex.right' _ (unseen_le graph first.keeps) (Nat.lt_succ_self _)

end

variable {graph : Graph}

theorem visit_marked {marked : List NodeId} {id : NodeId} (known : id ∈ marked) :
    graph.visit marked id = Visited.nothing marked := by
  rw [visit, dif_pos known]

theorem visit_absent {marked : List NodeId} {id : NodeId} (absent : graph.node? id = none) :
    graph.visit marked id = Visited.nothing marked := by
  rw [visit]
  split
  · rfl
  · split
    · rfl
    · rename_i node found
      rw [absent] at found
      cases found

/-- A visit of a node that is not marked. -/
theorem visit_fresh {marked : List NodeId} {id : NodeId} {node : Node} (fresh : id ∉ marked)
    (found : graph.node? id = some node) :
    (graph.visit marked id).emitted =
        (if node.kind = .task then [id] else []) ++
          (graph.follow (id :: marked) node (graph.outgoing id)).emitted ∧
      (graph.visit marked id).marks =
        (graph.follow (id :: marked) node (graph.outgoing id)).marks := by
  rw [visit, dif_neg fresh]
  split
  · rename_i absent
    rw [found] at absent
    cases absent
  · rename_i other same
    rw [found] at same
    cases same
    exact ⟨rfl, rfl⟩

theorem follow_nil (graph : Graph) (marked : List NodeId) (source : Node) :
    graph.follow marked source [] = Visited.nothing marked := by
  rw [follow]

theorem follow_barred {marked : List NodeId} {source : Node} {edge : Edge} {rest : List Edge}
    (barred : graph.entered? source edge = none) :
    graph.follow marked source (edge :: rest) = graph.follow marked source rest := by
  rw [follow, barred]

theorem follow_entered {marked : List NodeId} {source target : Node} {edge : Edge}
    {rest : List Edge} (entered : graph.entered? source edge = some target) :
    (graph.follow marked source (edge :: rest)).emitted =
        (graph.visit marked target.id).emitted ++
          (graph.follow (graph.visit marked target.id).marks source rest).emitted ∧
      (graph.follow marked source (edge :: rest)).marks =
        (graph.follow (graph.visit marked target.id).marks source rest).marks := by
  rw [follow, entered]
  exact ⟨rfl, rfl⟩

/-! ### The walk returns from nothing -/

def entries (graph : Graph) (source : Node) (edges : List Edge) : List NodeId :=
  edges.filterMap (fun edge => (graph.entered? source edge).map Node.id)

/-- What a trail meets before it comes to the rest of its stack is what a visit of the top
emits, and it goes on with the marks of that visit. -/
theorem trail_visit_and_follow (graph : Graph) :
    (∀ marked id stack,
      (graph.trail marked (id :: stack)).filter graph.isTask =
        (graph.visit marked id).emitted ++
          (graph.trail (graph.visit marked id).marks stack).filter graph.isTask) ∧
      ∀ marked source edges stack,
        (graph.trail marked (graph.entries source edges ++ stack)).filter graph.isTask =
          (graph.follow marked source edges).emitted ++
            (graph.trail (graph.follow marked source edges).marks stack).filter graph.isTask := by
  apply visit.mutual_induct graph
  · intro marked id known stack
    rw [trail_seen known, visit_marked known]
    rfl
  · intro marked id _ absent stack
    rw [trail_absent absent, visit_absent absent]
    rfl
  · intro marked id fresh node found behind stack
    obtain ⟨emitted, marks⟩ := visit_fresh fresh found
    have successors : graph.successors node = graph.entries node (graph.outgoing id) := by
      rw [← id_of_node? found]
      rfl
    rw [trail_fresh fresh found, emitted, marks, successors, List.append_assoc, ← behind stack]
    by_cases task : node.kind = .task
    · rw [if_pos task, List.filter_cons_of_pos ((isTask_iff found).mpr task)]
      rfl
    · rw [if_neg task, List.filter_cons_of_neg (fun held => task ((isTask_iff found).mp held))]
      rfl
  · intro marked source stack
    rw [follow_nil]
    rfl
  · intro marked source edge rest barred later stack
    have skipped : graph.entries source (edge :: rest) = graph.entries source rest := by
      simp [entries, barred]
    rw [skipped, follow_barred barred]
    exact later stack
  · intro marked source edge rest target entered first visited _ later stack
    obtain ⟨emitted, marks⟩ := follow_entered entered
    have pushed : graph.entries source (edge :: rest) =
        target.id :: graph.entries source rest := by
      simp [entries, entered]
    rw [pushed, List.cons_append, visited, later, emitted, marks, List.append_assoc]

/-! ### The task order -/

def depthFirst (graph : Graph) : List NodeId :=
  match graph.beginNode? with
  | none => []
  | some first => (graph.visit [] first.id).emitted

theorem reached_eq_depthFirst (graph : Graph) : graph.reached = graph.depthFirst := by
  unfold depthFirst
  cases begins : graph.beginNode? with
  | none => exact reached_of_noBegin begins
  | some first =>
      have whole := (trail_visit_and_follow graph).1 [] first.id []
      rw [trail, List.filter_nil, List.append_nil] at whole
      rw [reached_of_begin begins]
      exact whole

example : loopGraph.depthFirst = ["a", "b"] := by
  rw [← reached_eq_depthFirst]
  cbv

/-- The task order is that of a depth-first search from the begin node, with the tasks that
the search does not emit behind, in the order of the nodes. -/
theorem sequence_eq_depthFirst (graph : Graph) :
    graph.sequence =
      graph.depthFirst ++
        (graph.tasks.map Node.id).filter (fun id => id ∉ graph.depthFirst) := by
  unfold sequence
  rw [reached_eq_depthFirst]

end CrewCanvas.Graph
