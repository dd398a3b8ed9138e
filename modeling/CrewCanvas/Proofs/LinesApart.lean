/-
Lines of one kind and walks for the other.

An edge whose source feeds one kind of line shows nothing to a walk for the other kind, and
neither does the claim that it gives to the reroute it enters.  So the order of the tasks and
the tasks before each of them do not depend on agent lines, and the agents of the tasks do
not depend on execution lines, whatever reroutes the lines run through.
-/

import CrewCanvas.Proofs.RerouteClaims
import CrewCanvas.Proofs.SameWalks

namespace CrewCanvas

variable {line fed : LineKind}

/-! ### Nodes at the ends of an edge -/

namespace Node

variable {source : Node} {edge : Edge}

/-- What a walk for one kind of line looks for does not feed the other kind. -/
theorem kind_ne_feeder (feeds : source.feeds edge.sourceHandle = some fed) (different : fed ≠ line)
    (carries : edge.carries source line = true) : source.kind ≠ line.feeder := by
  intro kind
  rw [Edge.carries_iff] at carries
  rcases feeds_eq_some_iff.mp feeds with giver | ⟨task, output⟩
  · rw [kind] at giver
    cases line <;> cases fed <;> first | exact different rfl | cases giver
  · have free := carries task
    rw [output] at free
    cases line <;> cases fed <;> first | exact different rfl | exact free rfl

theorem kind_ne_reroute_of_feeds {handle : Option Handle} (feeds : source.feeds handle = some fed) :
    source.kind ≠ .reroute := by
  intro kind
  rw [feeds_of_reroute kind] at feeds
  cases feeds

theorem not_leadsOn (feeds : source.feeds edge.sourceHandle = some .agent) (target : Node) :
    edge.leadsOn source target = false := by
  apply Bool.eq_false_iff.mpr
  intro leadsOn
  obtain ⟨noAgent, noAgentOutput, _⟩ := Edge.leadsOn_iff.mp leadsOn
  rcases feeds_eq_some_iff.mp feeds with agent | ⟨task, output⟩
  · exact noAgent agent
  · exact noAgentOutput task output

theorem claimedFor_of_kind {node : Node} (kind : node.kind ≠ .reroute) (claim : Option LineKind) :
    node.claimedFor claim = node := by
  obtain ⟨id, position, data⟩ := node
  cases claim with
  | none => rfl
  | some claimed =>
      cases data with
      | reroute before => exact absurd rfl kind
      | begin => rfl
      | agent data => rfl
      | task data => rfl

end Node

namespace Graph

/-- A claim for one kind of line does not show in the other. -/
theorem sameFor_claimedFor (node : Node) {claim : Option LineKind} (different : claim ≠ some line) :
    SameFor line node (node.claimedFor claim) where
  id := node.id_claimedFor claim
  kind := node.kind_claimedFor claim
  claimed := by
    by_cases kind : node.kind = .reroute
    · rw [Node.claimed?_claimedFor kind, Option.or_eq_some_iff]
      simp [different]
    · rw [Node.claimedFor_of_kind kind]

/-! ### One edge more -/

variable {graph next more : Graph} {edge : Edge} {source : Node} {α : Type}

/-- A graph, and the same graph with one edge more, which may have claimed the reroute that it
enters for what its source feeds. -/
structure OneMore (graph more : Graph) (edge : Edge) (source : Node) : Prop where
  edges : ∃ front back, graph.edges = front ++ back ∧ more.edges = front ++ edge :: back
  leaves : graph.node? edge.source = some source
  nodes : ∃ claim, more.nodes = (graph.claim? edge.target claim).nodes ∧
    ∀ line, claim = some line → source.feeds edge.sourceHandle = some line

namespace OneMore

theorem filterMap_edges (oneMore : OneMore graph more edge source) {keep : Edge → Bool}
    {f : Edge → Option α} (nothing : keep edge = true → f edge = none) :
    (more.edges.filter keep).filterMap f = (graph.edges.filter keep).filterMap f := by
  obtain ⟨front, back, parts, moreParts⟩ := oneMore.edges
  rw [parts, moreParts, List.filter_append, List.filter_append, List.filterMap_append,
    List.filterMap_append]
  congr 1
  cases kept : keep edge with
  | false => rw [List.filter_cons_of_neg (by simp [kept])]
  | true => rw [List.filter_cons_of_pos kept, List.filterMap_cons_none (nothing kept)]

theorem outline (oneMore : OneMore graph more edge source) : more.outline = graph.outline := by
  obtain ⟨claim, nodes, _⟩ := oneMore.nodes
  unfold Graph.outline
  rw [nodes]
  refine map_claim? ?_ graph edge.target claim
  intro node line
  exact congrArg (Prod.mk node.id) (NodeData.kind_claim node.data line)

section Other

variable (oneMore : OneMore graph more edge source)
  (feeds : source.feeds edge.sourceHandle = some fed) (different : fed ≠ line)

include oneMore feeds different

theorem sameFor (id : NodeId) :
    Option.Rel (fun node later => SameFor line node later ∧
      (node.kind ≠ .reroute → later = node)) (graph.node? id) (more.node? id) := by
  obtain ⟨claim, nodes, fits⟩ := oneMore.nodes
  have unlike : claim ≠ some line := by
    intro same
    rw [fits line same] at feeds
    exact different (Option.some.inj feeds).symm
  rw [node?_of_nodes nodes]
  by_cases entered : id = edge.target
  · rw [entered, node?_claim?_self]
    cases graph.node? edge.target with
    | none => exact Option.Rel.none
    | some node =>
        exact Option.Rel.some ⟨sameFor_claimedFor node unlike,
          fun kind => Node.claimedFor_of_kind kind claim⟩
  · rw [node?_claim?_other entered]
    cases graph.node? id with
    | none => exact Option.Rel.none
    | some node => exact Option.Rel.some ⟨SameFor.refl node, fun _ => rfl⟩

/-- The walk back for the other line does not see the edge. -/
theorem sight_eq_none {shown : Node → Option α}
    (shows : ∀ node, node.kind ≠ line.feeder → shown node = none) :
    graph.sight line shown edge = none := by
  unfold sight
  rw [oneMore.leaves]
  simp only [if_neg (Node.kind_ne_reroute_of_feeds feeds)]
  split
  · rename_i carries
    rw [shows source (Node.kind_ne_feeder feeds different carries), Option.map_none]
  · rfl

theorem sameInto {shown : Node → Option α}
    (shows : ∀ node, node.kind ≠ line.feeder → shown node = none) (id : NodeId) :
    SameInto graph more line shown shown id := by
  have sights : more.sight line shown = graph.sight line shown := by
    funext other
    apply sight_congr
    refine rel_imp (oneMore.sameFor feeds different other.source) ?_
    rintro node later ⟨same, unchanged⟩
    exact ⟨same, fun kind => congrArg shown (unchanged kind)⟩
  intro keep
  unfold incoming
  rw [sights, List.filter_filter, List.filter_filter]
  exact oneMore.filterMap_edges (fun _ => oneMore.sight_eq_none feeds different shows)

end Other

section Agent

variable (oneMore : OneMore graph more edge source)
  (feeds : source.feeds edge.sourceHandle = some .agent)

include oneMore feeds

/-- Control flow does not go along an agent line. -/
theorem successors {id : NodeId} {node : Node} (found : graph.node? id = some node) :
    ∃ later, more.node? id = some later ∧ later.kind = node.kind ∧
      more.successors later = graph.successors node := by
  have different : LineKind.agent ≠ .execution := by decide
  have related := oneMore.sameFor feeds different id
  rw [found] at related
  generalize foundMore : more.node? id = after at related
  cases related with
  | @some _ later alike =>
      obtain ⟨same, _⟩ := alike
      refine ⟨later, rfl, same.kind, ?_⟩
      have entered : (fun edge => (more.entered? later edge).map Node.id) =
          fun edge => (graph.entered? node edge).map Node.id := by
        funext other
        apply entered?_congr same.kind
        exact rel_imp (oneMore.sameFor feeds different other.target) (fun _ _ alike => alike.1)
      unfold Graph.successors outgoing
      rw [entered, same.id]
      apply oneMore.filterMap_edges
      intro leaves
      -- only the node that the new edge leaves has one more edge to go along
      have isSource : node = source := by
        have sourceFound := oneMore.leaves
        rw [of_decide_eq_true leaves, node?_id found] at sourceFound
        exact Option.some.inj sourceFound
      rw [isSource, Option.map_eq_none_iff]
      unfold entered?
      rw [Option.filter_eq_none_iff]
      intro target _
      rw [Node.not_leadsOn feeds target]
      exact Bool.false_ne_true

theorem sequence : more.sequence = graph.sequence :=
  sequence_congr (fun _ _ found => oneMore.successors feeds found) oneMore.outline

theorem predecessors (id : NodeId) : more.predecessors id = graph.predecessors id := by
  apply predecessors_congr
  intro other _
  apply oneMore.sameInto feeds (by decide)
  intro node kind
  exact Option.guard_eq_none_iff.mpr (by simp [show node.kind ≠ .task from kind])

end Agent

theorem agentFor? (oneMore : OneMore graph more edge source)
    (feeds : source.feeds edge.sourceHandle = some .execution) (id : NodeId) :
    more.agentFor? id = graph.agentFor? id := by
  refine agentFor?_congr ?_ id
  apply oneMore.sameInto feeds (by decide)
  intro node kind
  exact Option.guard_eq_none_iff.mpr (by simp [show node.kind ≠ .agent from kind])

end OneMore

/-! ### Edges that are added and removed -/

structure OtherLineKept (graph next : Graph) (source : Node) (handle : Option Handle) :
    Prop where
  ofAgentLine : source.kind = .agent ∨ (source.kind = .task ∧ handle = some .agentOut) →
    next.sequence = graph.sequence ∧ ∀ id, next.predecessors id = graph.predecessors id
  ofExecutionLine : source.kind = .begin ∨ (source.kind = .task ∧ handle = some .execOut) →
    ∀ id, next.agentFor? id = graph.agentFor? id

theorem OneMore.otherLineKept (oneMore : OneMore graph more edge source) :
    OtherLineKept graph more source edge.sourceHandle where
  ofAgentLine := by
    intro leaves
    have feeds : source.feeds edge.sourceHandle = some .agent := Node.feeds_eq_some_iff.mpr leaves
    exact ⟨oneMore.sequence feeds, oneMore.predecessors feeds⟩
  ofExecutionLine := by
    intro leaves
    exact oneMore.agentFor? (Node.feeds_eq_some_iff.mpr leaves)

theorem OtherLineKept.symm {handle : Option Handle}
    (kept : OtherLineKept graph next source handle) : OtherLineKept next graph source handle where
  ofAgentLine := by
    intro leaves
    obtain ⟨sequence, predecessors⟩ := kept.ofAgentLine leaves
    exact ⟨sequence.symm, fun id => (predecessors id).symm⟩
  ofExecutionLine := fun leaves id => (kept.ofExecutionLine leaves id).symm

theorem oneMore_addEdge {connection : Connection} {id : EdgeId}
    (leaves : graph.node? connection.source = some source)
    (accepted : (graph.addEdge connection id).2.isAccepted = true) :
    ∃ line, OneMore graph (graph.addEdge connection id).1
      (Edge.ofConnection id connection line) source := by
  unfold addEdge at accepted ⊢
  cases verdict : (graph.judge connection).verdict with
  | rejected => simp [verdict, Verdict.isAccepted] at accepted
  | accepted line =>
      simp only [verdict, edges_claim?]
      refine ⟨line, ⟨⟨graph.edges, [], by simp, rfl⟩, leaves, ?_⟩⟩
      refine ⟨(graph.judge connection).claim, rfl, ?_⟩
      intro claimed claim
      obtain ⟨first, target, left, entered, _⟩ := accepts_iff.mp (accepts_of_verdict verdict)
      cases left.symm.trans leaves
      rw [judge_of_found left entered] at claim
      exact Node.feeds_of_claim claim

theorem oneMore_removeEdge (unique : graph.UniqueEdges) (member : edge ∈ graph.edges)
    (leaves : graph.node? edge.source = some source) :
    ∃ next, graph.removeEdge edge.id = .ok next ∧ OneMore next graph edge source := by
  obtain ⟨found, isFound⟩ := mem_edgeIds_iff.mp (List.mem_map_of_mem member)
  obtain ⟨front, back, parts⟩ := List.append_of_mem member
  have kept : graph.edges.filter (fun other => other.id ≠ edge.id) = front ++ back := by
    rw [parts, filter_others (unique.others parts)]
  refine ⟨{ graph with edges := graph.edges.filter (fun other => other.id ≠ edge.id) }, ?_, ?_⟩
  · unfold removeEdge
    rw [isFound]
  · exact ⟨⟨front, back, kept, parts⟩, leaves, none, rfl, by intro line claim; cases claim⟩

structure LinesApart (graph : Graph) : Prop where
  accepting : ∀ connection id source, graph.node? connection.source = some source →
    (graph.addEdge connection id).2.isAccepted = true →
      OtherLineKept graph (graph.addEdge connection id).1 source connection.sourceHandle
  removing : graph.UniqueEdges → ∀ edge ∈ graph.edges, ∀ source,
    graph.node? edge.source = some source →
      ∃ next, graph.removeEdge edge.id = .ok next ∧
        OtherLineKept graph next source edge.sourceHandle

/-- Agent lines and execution lines do not interfere. -/
theorem lines_apart (graph : Graph) : graph.LinesApart where
  accepting := by
    intro connection id source leaves accepted
    obtain ⟨line, oneMore⟩ := oneMore_addEdge leaves accepted
    exact oneMore.otherLineKept
  removing := by
    intro unique edge member source leaves
    obtain ⟨next, removed, oneMore⟩ := oneMore_removeEdge unique member leaves
    exact ⟨next, removed, oneMore.otherLineKept.symm⟩

def crossingLines : Graph :=
  { nodes :=
      [Node.plain .task "u", Node.plain .begin "s", Node.plain .agent "w", Node.plain .task "t",
        Node.plain .reroute "r", { id := "q", data := .reroute (some .agent) }]
    edges :=
      [⟨"e1", "r", none, "q", none, false⟩, ⟨"e2", "q", none, "t", some .agent, false⟩,
        ⟨"e3", "s", some .execOut, "t", some .execIn, true⟩,
        ⟨"e4", "t", some .execOut, "u", some .execIn, true⟩] }

def agentLine : Connection := ⟨"w", some .agentOut, "r", none⟩

theorem crossingLines_apart :
    let fed := (crossingLines.addEdge agentLine "e5").1
    (crossingLines.addEdge agentLine "e5").2.isAccepted = true ∧
      (crossingLines.node? "r").map Node.claimed? = some none ∧
      (fed.node? "r").map Node.claimed? = some (some .agent) ∧
      crossingLines.agentFor? "t" = none ∧ (fed.agentFor? "t").map Node.id = some "w" ∧
      (fed.sequence = crossingLines.sequence ∧
        ∀ id, fed.predecessors id = crossingLines.predecessors id) ∧
      fed.UniqueEdges ∧ ∃ next, fed.removeEdge "e3" = .ok next ∧
        fed.sequence = ["t", "u"] ∧ next.sequence = ["u", "t"] ∧
        ∀ id, next.agentFor? id = fed.agentFor? id := by
  have accepted : (crossingLines.addEdge agentLine "e5").2.isAccepted = true := by decide
  have unique : (crossingLines.addEdge agentLine "e5").1.UniqueEdges := by decide
  have added := (lines_apart crossingLines).accepting agentLine "e5" (Node.plain .agent "w")
    (by decide) accepted
  obtain ⟨next, removed, kept⟩ := (lines_apart (crossingLines.addEdge agentLine "e5").1).removing
    unique ⟨"e3", "s", some .execOut, "t", some .execIn, true⟩ (by decide)
    (Node.plain .begin "s") (by decide)
  refine ⟨accepted, by decide, by decide, by cbv, by cbv, added.ofAgentLine (Or.inl rfl), unique,
    next, removed, by cbv, ?_, kept.ofExecutionLine (Or.inl rfl)⟩
  cases removed
  cbv

end Graph

end CrewCanvas
