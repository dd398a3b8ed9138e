/-
Agreement of the forward walk and the backward walk.

The task order looks at the claim of the node that an edge enters, the
predecessors at the claim of the node that it leaves.  Both describe the same
lines: a task behind a reached predecessor is reached, and every reached task has
an earlier predecessor or a supply chain from the begin node.
-/

import CrewCanvas.Proofs.SupplyChain
import CrewCanvas.Proofs.TaskOrder

namespace CrewCanvas.Graph

variable {graph : Graph}

/-! ### Supply chains are control chains -/

theorem ControlChain.append {source middle target : Node} {front back : List Edge}
    (first : graph.ControlChain source front middle)
    (second : graph.ControlChain middle back target) :
    graph.ControlChain source (front ++ back) target := by
  induction first with
  | single step => exact ControlChain.cons step second
  | cons step _ ih => exact ControlChain.cons step (ih second)

/-- A supply chain into the execution input of a task is a control chain, unless it
starts at an agent. -/
theorem SupplyChain.controlChain {source target : Node} {edges : List Edge}
    (stop : graph.node? target.id = some target) (task : target.kind = .task)
    (chain : graph.SupplyChain .execution .execIn target source edges)
    (noAgent : source.kind ≠ .agent) : graph.ControlChain source edges target := by
  induction chain with
  | direct present found enters into allowed =>
      exact ControlChain.single
        ⟨present, found, enters ▸ stop, noAgent, allowed, Or.inl ⟨task, into⟩⟩
  | through present found enters kind claimed allowed _ ih =>
      have control := ih (by simp [kind])
      exact ControlChain.cons ⟨present, found, enters, noAgent, allowed, Or.inr ⟨kind, claimed⟩⟩
        control

/-- Control flow that reaches a predecessor of a task reaches the task. -/
theorem reached_of_predecessor (unique : graph.UniqueNodes) {before task : Node}
    (member : task ∈ graph.tasks) (predecessor : before ∈ graph.predecessors task.id)
    (reached : before.id ∈ graph.reached) : task.id ∈ graph.reached := by
  obtain ⟨present, kind⟩ := mem_tasks_iff.mp member
  obtain ⟨beforeKind, _, edges, chain⟩ := mem_predecessors_iff.mp predecessor
  have beforePresent := mem_of_node? chain.found
  obtain ⟨first, front, begins, control⟩ :=
    (mem_reached_iff unique beforePresent beforeKind).mp reached
  have back := chain.controlChain (node?_of_mem unique present) kind (by simp [beforeKind])
  exact (mem_reached_iff unique present kind).mpr ⟨first, front ++ edges, begins,
    control.append back⟩

/-! ### Where a reached task is entered from -/

theorem trail_entry {start id : NodeId} {earlier later : List NodeId} {node : Node}
    (found : graph.node? id = some node)
    (parts : graph.trail [] [start] = earlier ++ id :: later) :
    id = start ∨ ∃ cause ∈ earlier, ∃ source edge,
      graph.node? cause = some source ∧ graph.ControlEdge edge source node := by
  rcases trail_cause parts with atStart | ⟨cause, before, source, causeFound, entered⟩
  · exact Or.inl (List.mem_singleton.mp atStart)
  · obtain ⟨edge, target, step, same⟩ := (mem_successors_iff (node?_id causeFound)).mp entered
    have foundTarget := step.found
    rw [same, found] at foundTarget
    cases foundTarget
    exact Or.inr ⟨cause, before, source, edge, causeFound, step⟩

/-- A supply chain from a node of a trail goes back along the trail, through
reroutes, to a task or to the start. -/
theorem supply_along_trail {start id : NodeId} {earlier later : List NodeId} {edges : List Edge}
    {first node target : Node} (begins : graph.node? start = some first)
    (found : graph.node? id = some node)
    (parts : graph.trail [] [start] = earlier ++ id :: later)
    (chain : graph.SupplyChain .execution .execIn target node edges) :
    (∃ edges, graph.SupplyChain .execution .execIn target first edges) ∨
      ∃ before edges, before.kind = .task ∧ before.id ∈ earlier ++ [id] ∧
        graph.SupplyChain .execution .execIn target before edges := by
  induction steps : earlier.length using Nat.strongRecOn generalizing id earlier later edges node with
  | ind steps ih =>
      subst steps
      rcases trail_entry found parts with same | ⟨cause, before, source, edge, causeFound, step⟩
      · subst id
        rw [begins] at found
        cases found
        exact Or.inl ⟨edges, chain⟩
      · rcases step.admits with ⟨task, _⟩ | ⟨reroute, claimed⟩
        · refine Or.inr ⟨node, edges, task, ?_, chain⟩
          rw [id_of_node? found]
          exact List.mem_append_right _ List.mem_cons_self
        · have longer := SupplyChain.through step.present step.leaves step.enters reroute claimed
            step.noAgentOutput chain
          obtain ⟨front, back, split⟩ := List.append_of_mem before
          subst split
          have causeParts : graph.trail [] [start] = front ++ cause :: (back ++ id :: later) := by
            rw [parts, List.append_assoc, List.cons_append]
          have shorter : front.length < (front ++ cause :: back).length := by
            rw [List.length_append, List.length_cons]
            omega
          rcases ih front.length shorter causeFound causeParts longer rfl with
            fromStart | ⟨earlierTask, rest, task, place, supply⟩
          · exact Or.inl fromStart
          · refine Or.inr ⟨earlierTask, rest, task, ?_, supply⟩
            rcases List.mem_append.mp place with inFront | atCause
            · exact List.mem_append_left _ (List.mem_append_left _ inFront)
            · rw [List.mem_singleton] at atCause
              exact List.mem_append_left _ (atCause ▸ before)

theorem trail_of_reached {id : NodeId} (reached : id ∈ graph.reached) :
    ∃ first earlier later, graph.beginNode? = some first ∧
      graph.trail [] [first.id] = earlier ++ id :: later := by
  obtain ⟨_, first, begins, leads⟩ := mem_reached_iff_leads.mp reached
  obtain ⟨earlier, later, parts⟩ :=
    List.append_of_mem (mem_trail_iff.mpr ⟨first.id, List.mem_cons_self, leads⟩)
  exact ⟨first, earlier, later, begins, parts⟩

theorem sequence_of_trail {first : Node} {id : NodeId} {earlier later : List NodeId}
    (begins : graph.beginNode? = some first)
    (parts : graph.trail [] [first.id] = earlier ++ id :: later) (task : graph.isTask id = true) :
    ∃ rest, graph.sequence = earlier.filter graph.isTask ++ id :: rest := by
  refine ⟨later.filter graph.isTask ++
    (graph.tasks.map Node.id).filter (fun id => id ∉ graph.reached), ?_⟩
  change graph.reached ++ _ = _
  rw [reached_of_begin begins, parts, List.filter_append, List.filter_cons_of_pos task,
    List.append_assoc, List.cons_append]

theorem ControlEdge.supplyChain {edge : Edge} {source task : Node}
    (step : graph.ControlEdge edge source task) (kind : task.kind = .task) :
    graph.SupplyChain .execution .execIn task source [edge] := by
  have into : edge.targetHandle = some .execIn := by
    rcases step.admits with ⟨_, into⟩ | ⟨reroute, _⟩
    · exact into
    · rw [kind] at reroute
      cases reroute
  exact SupplyChain.direct step.present step.leaves (id_of_node? step.enters).symm into
    step.noAgentOutput

/-- A reached task has a predecessor that comes earlier, or a supply chain from the
begin node. -/
theorem earlier_predecessor_or_begin (unique : graph.UniqueNodes) {task : Node}
    (member : task ∈ graph.tasks) (reached : task.id ∈ graph.reached) :
    (∃ before ∈ graph.predecessors task.id, ∃ earlier later,
      graph.sequence = earlier ++ task.id :: later ∧ before.id ∈ earlier) ∨
    ∃ first edges, graph.beginNode? = some first ∧
      graph.SupplyChain .execution .execIn task first edges := by
  obtain ⟨present, kind⟩ := mem_tasks_iff.mp member
  have found := node?_of_mem unique present
  obtain ⟨first, earlier, later, begins, parts⟩ := trail_of_reached reached
  have start := node?_of_mem unique (mem_of_beginNode? begins)
  have distinct := trail_nodup graph [] [first.id]
  rw [parts] at distinct
  rcases trail_entry found parts with same | ⟨cause, inEarlier, source, edge, causeFound, step⟩
  · rw [same, start] at found
    have starts := kind_of_beginNode? begins
    rw [Option.some.inj found, kind] at starts
    cases starts
  · obtain ⟨front, back, split⟩ := List.append_of_mem inEarlier
    have causeParts : graph.trail [] [first.id] = front ++ cause :: (back ++ task.id :: later) := by
      rw [parts, split, List.append_assoc, List.cons_append]
    rcases supply_along_trail start causeFound causeParts (step.supplyChain kind) with
      ⟨edges, supply⟩ | ⟨before, edges, beforeKind, place, supply⟩
    · exact Or.inr ⟨first, edges, begins, supply⟩
    · have ahead : before.id ∈ earlier := by
        rw [split]
        rcases List.mem_append.mp place with inFront | atCause
        · exact List.mem_append_left _ inFront
        · exact List.mem_append_right _ (List.mem_singleton.mp atCause ▸ List.mem_cons_self)
      have different : before.id ≠ task.id :=
        (List.nodup_append.mp distinct).2.2 before.id ahead task.id List.mem_cons_self
      obtain ⟨rest, order⟩ := sequence_of_trail begins parts ((isTask_iff found).mpr kind)
      refine Or.inl ⟨before, mem_predecessors_iff.mpr ⟨beforeKind, different, edges, supply⟩,
        earlier.filter graph.isTask, rest, order, ?_⟩
      exact List.mem_filter.mpr ⟨ahead, (isTask_iff supply.found).mpr beforeKind⟩

structure WalksAgree (graph : Graph) : Prop where
  behind : ∀ task ∈ graph.tasks, ∀ before ∈ graph.predecessors task.id,
    before.id ∈ graph.reached → task.id ∈ graph.reached
  ahead : ∀ task ∈ graph.tasks, task.id ∈ graph.reached →
    (∃ before ∈ graph.predecessors task.id, ∃ earlier later,
      graph.sequence = earlier ++ task.id :: later ∧ before.id ∈ earlier) ∨
    ∃ first edges, graph.beginNode? = some first ∧
      graph.SupplyChain .execution .execIn task first edges

/-- The forward walk and the backward walk describe the same lines in every graph. -/
theorem reached_agrees_with_predecessors (unique : graph.UniqueNodes) : graph.WalksAgree where
  behind := by
    intro task member before predecessor reached
    exact reached_of_predecessor unique member predecessor reached
  ahead := by
    intro task member reached
    exact earlier_predecessor_or_begin unique member reached

theorem loopGraph_walksAgree : loopGraph.UniqueNodes ∧ loopGraph.WalksAgree := by
  have unique : loopGraph.UniqueNodes := by decide
  exact ⟨unique, reached_agrees_with_predecessors unique⟩

end CrewCanvas.Graph
