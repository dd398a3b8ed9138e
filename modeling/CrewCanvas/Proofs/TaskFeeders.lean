/-
What feeds a task, and in which order.

The predecessors of a task are the tasks with a supply chain into its execution input, each
once, and its agent is one with a supply chain into its agent input.  The walk back keeps a
stack of edges.  It meets its sources in the order of a plain recursion, which takes the edges
into an input one after the other and expands a reroute in place, where it first meets it.
-/

import CrewCanvas.Proofs.SupplyChain

namespace CrewCanvas.Graph

variable {graph : Graph} {line : LineKind}

/-! ### Each predecessor once -/

theorem firstOfEach_nodup (seen : List NodeId) (nodes : List Node) :
    ((firstOfEach seen nodes).map Node.id).Nodup ∧
      ∀ id ∈ (firstOfEach seen nodes).map Node.id, id ∉ seen := by
  induction nodes generalizing seen with
  | nil => exact ⟨List.nodup_nil, fun _ member => absurd member List.not_mem_nil⟩
  | cons first rest ih =>
      unfold firstOfEach
      split
      · exact ih seen
      · rename_i fresh
        obtain ⟨once, unseen⟩ := ih (first.id :: seen)
        constructor
        · refine List.nodup_cons.mpr ⟨?_, once⟩
          intro again
          exact unseen _ again List.mem_cons_self
        · intro id member known
          rcases List.mem_cons.mp member with isFirst | later
          · exact fresh (isFirst ▸ known)
          · exact unseen id later (List.mem_cons_of_mem _ known)

theorem predecessors_nodup (graph : Graph) (id : NodeId) :
    ((graph.predecessors id).map Node.id).Nodup :=
  (firstOfEach_nodup [] _).1

theorem SupplyChain.mem_nodes {handle : Handle} {target source : Node} {edges : List Edge}
    (chain : graph.SupplyChain line handle target source edges) : source ∈ graph.nodes :=
  mem_of_node? chain.found

/-- The agent of a task has a supply chain into the agent input. -/
theorem chain_of_agentFor? {task agent : Node} (assigned : graph.agentFor? task.id = some agent) :
    agent ∈ graph.agents ∧ ∃ edges, graph.SupplyChain .agent .agent task agent edges := by
  have kind : agent.kind = .agent := by simpa using List.find?_some assigned
  obtain ⟨_, edges, chain⟩ := mem_feedersInto_iff.mp (List.mem_of_find?_eq_some assigned)
  exact ⟨mem_agents_iff.mpr ⟨chain.mem_nodes, kind⟩, edges, chain⟩

theorem agentFor?_isSome_iff {task : Node} :
    (graph.agentFor? task.id).isSome = true ↔
      ∃ agent ∈ graph.agents, ∃ edges, graph.SupplyChain .agent .agent task agent edges := by
  constructor
  · intro some
    obtain ⟨agent, assigned⟩ := Option.isSome_iff_exists.mp some
    exact ⟨agent, chain_of_agentFor? assigned⟩
  · rintro ⟨agent, member, chain⟩
    have kind := (mem_agents_iff.mp member).2
    refine List.find?_isSome.mpr ⟨agent, mem_feedersInto_iff.mpr ⟨?_, chain⟩, by simpa using kind⟩
    simp [kind]

structure FedByChains (graph : Graph) (task : Node) : Prop where
  once : ((graph.predecessors task.id).map Node.id).Nodup
  predecessorsIff : ∀ before, before ∈ graph.predecessors task.id ↔
    before ∈ graph.tasks ∧ before.id ≠ task.id ∧
      ∃ edges, graph.SupplyChain .execution .execIn task before edges
  assignedIff : (graph.agentFor? task.id).isSome = true ↔
    ∃ agent ∈ graph.agents, ∃ edges, graph.SupplyChain .agent .agent task agent edges
  assigned : ∀ agent, graph.agentFor? task.id = some agent →
    agent ∈ graph.agents ∧ ∃ edges, graph.SupplyChain .agent .agent task agent edges

/-- The predecessors and the agent of a task are what supply chains bring to it. -/
theorem fedByChains (graph : Graph) (task : Node) : graph.FedByChains task where
  once := graph.predecessors_nodup task.id
  predecessorsIff := by
    intro before
    rw [mem_predecessors_iff, mem_tasks_iff]
    constructor
    · rintro ⟨kind, other, edges, chain⟩
      exact ⟨⟨chain.mem_nodes, kind⟩, other, edges, chain⟩
    · rintro ⟨⟨_, kind⟩, other, chain⟩
      exact ⟨kind, other, chain⟩
  assignedIff := agentFor?_isSome_iff
  assigned := fun _ assigned => chain_of_agentFor? assigned

/-! ### Expansion in place -/

/-- What a gathering leaves behind: the sources it has emitted, and all expanded reroutes. -/
structure Gathered (expanded : List NodeId) where
  emitted : List Node
  marks : List NodeId
  keeps : ∀ id ∈ expanded, id ∈ marks

def Gathered.nothing (expanded : List NodeId) : Gathered expanded :=
  { emitted := [], marks := expanded, keeps := fun _ member => member }

/-- Gathers the sources of a line along edges, in their order.  The edges into a reroute take
the place of an edge out of it, if it is claimed for the line and was not expanded before. -/
def gather (graph : Graph) (line : LineKind) (expanded : List NodeId) :
    List Edge → Gathered expanded
  | [] => Gathered.nothing expanded
  | edge :: rest =>
      match _found : graph.node? edge.source with
      | none => gather graph line expanded rest
      | some source =>
          if edge.carries source line then
            if source.kind = .reroute then
              if _opens : source.claimed? = some line ∧ edge.source ∉ expanded then
                let behind :=
                  gather graph line (edge.source :: expanded) (graph.incoming edge.source)
                let others := gather graph line behind.marks rest
                { emitted := behind.emitted ++ others.emitted
                  marks := others.marks
                  keeps := fun id member =>
                    others.keeps id (behind.keeps id (List.mem_cons_of_mem edge.source member)) }
              else gather graph line expanded rest
            else
              let others := gather graph line expanded rest
              { emitted := source :: others.emitted
                marks := others.marks
                keeps := others.keeps }
          else gather graph line expanded rest
termination_by edges => (graph.unseen expanded, edges.length)
decreasing_by
  · exact Prod.Lex.right _ (Nat.lt_succ_self _)
  · exact Prod.Lex.left _ _ (unseen_cons_lt _found _opens.2)
  · refine Prod.Lex.right' _ (unseen_le graph ?_) (Nat.lt_succ_self _)
    exact fun id member => behind.keeps id (List.mem_cons_of_mem edge.source member)
  · exact Prod.Lex.right _ (Nat.lt_succ_self _)
  · exact Prod.Lex.right _ (Nat.lt_succ_self _)
  · exact Prod.Lex.right _ (Nat.lt_succ_self _)

theorem feeders_gather (graph : Graph) (line : LineKind) (expanded : List NodeId)
    (edges stack : List Edge) :
    graph.feeders line expanded (edges ++ stack) =
      (graph.gather line expanded edges).emitted ++
        graph.feeders line (graph.gather line expanded edges).marks stack := by
  fun_induction graph.gather line expanded edges generalizing stack with
  | case1 expanded => rfl
  | case2 expanded edge rest absent ih =>
      rw [List.cons_append, feeders_absent absent]
      exact ih stack
  | case3 expanded edge rest source found carries kind opens behind others ihBehind ihOthers =>
      rw [List.cons_append, feeders_open found kind opens.1 opens.2, ihBehind, ihOthers,
        ← List.append_assoc]
  | case4 expanded edge rest source found carries kind closed ih =>
      rw [Decidable.not_and_iff_not_or_not, Decidable.not_not] at closed
      rw [List.cons_append, feeders_closed found kind closed]
      exact ih stack
  | case5 expanded edge rest source found carries kind others ih =>
      rw [List.cons_append, feeders_source found carries kind, ih, ← List.cons_append]
  | case6 expanded edge rest source found barred ih =>
      rw [List.cons_append, feeders_barred found (by simpa using barred)]
      exact ih stack

def gathered (graph : Graph) (id : NodeId) (handle : Handle) (line : LineKind) : List Node :=
  (graph.gather line []
    ((graph.incoming id).filter (fun edge => edge.targetHandle = some handle))).emitted

theorem feedersInto_eq_gathered (graph : Graph) (id : NodeId) (handle : Handle)
    (line : LineKind) : graph.feedersInto id handle line = graph.gathered id handle line := by
  have whole := feeders_gather graph line []
    ((graph.incoming id).filter (fun edge => edge.targetHandle = some handle)) []
  rw [List.append_nil, feeders, List.append_nil] at whole
  exact whole

/-! ### The first of each -/

theorem firstOfEach_eq_eraseDups (seen : List NodeId) {nodes : List Node}
    (each : OneOfEach nodes) :
    firstOfEach seen nodes = (nodes.filter (fun node => node.id ∉ seen)).eraseDups := by
  induction nodes generalizing seen with
  | nil => rfl
  | cons first rest ih =>
      unfold firstOfEach
      by_cases known : first.id ∈ seen
      · rw [if_pos known, List.filter_cons_of_neg (by simpa using known)]
        exact ih seen each.tail
      · rw [if_neg known, List.filter_cons_of_pos (by simpa using known), List.eraseDups_cons,
          ih (first.id :: seen) each.tail, List.filter_filter]
        congr 2
        apply List.filter_congr
        intro node member
        have same : node.id = first.id ↔ node = first :=
          ⟨each node (List.mem_cons_of_mem first member) first List.mem_cons_self,
            congrArg Node.id⟩
        by_cases isFirst : node = first <;> simp [same, isFirst]

/-- The predecessors of a task are the other tasks that the recursion gathers at its execution
input, without repetition, and its agent is the first one gathered at its agent input. -/
theorem fed_in_gathering_order (graph : Graph) (id : NodeId) :
    graph.predecessors id =
        ((graph.gathered id .execIn .execution).filter
          (fun node => node.kind = .task ∧ node.id ≠ id)).eraseDups ∧
      graph.agentFor? id =
        (graph.gathered id .agent .agent).find? (fun node => node.kind = .agent) := by
  rw [← feedersInto_eq_gathered, ← feedersInto_eq_gathered]
  refine ⟨?_, rfl⟩
  unfold predecessors
  rw [firstOfEach_eq_eraseDups [] (oneOfEach_feedersInto _ _ _)]
  congr 1
  apply List.filter_eq_self.mpr
  simp

def mutualReroutes : Graph :=
  { nodes :=
      [Node.plain .task "t", Node.plain .task "a", Node.plain .task "b", Node.plain .task "c",
        { id := "r", data := .reroute (some .execution) },
        { id := "q", data := .reroute (some .execution) }]
    edges :=
      [⟨"e1", "r", none, "t", some .execIn, true⟩,
        ⟨"e2", "a", some .execOut, "t", some .execIn, true⟩,
        ⟨"e3", "b", some .execOut, "r", none, true⟩, ⟨"e4", "q", none, "r", none, true⟩,
        ⟨"e5", "t", some .execOut, "q", none, true⟩, ⟨"e6", "a", some .execOut, "q", none, true⟩,
        ⟨"e7", "r", none, "q", none, true⟩, ⟨"e8", "q", none, "t", some .execIn, true⟩,
        ⟨"e9", "c", some .agentOut, "q", none, false⟩] }

example : (mutualReroutes.gathered "t" .execIn .execution).map Node.id = ["b", "t", "a", "a"] := by
  rw [← feedersInto_eq_gathered]
  cbv

end CrewCanvas.Graph
