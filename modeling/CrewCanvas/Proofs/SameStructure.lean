/-
Graphs of the same structure.

The structure of a graph is the id, the kind and the claim of each node and the ends and the
handles of each edge, in order.  Two graphs of the same structure may differ in positions, in
all texts, in the ids of edges and in how these are drawn.  The walks and the connection rules
do not see that, and after a connection is judged and added the graphs are of the same
structure again.
-/

import CrewCanvas.Proofs.LinesApart
import CrewCanvas.Proofs.Lists

namespace CrewCanvas

/-! ### Nodes in the same role -/

namespace Node

/-- What the rules and the walks see of a node. -/
def role (node : Node) : NodeId × NodeKind × Option LineKind :=
  (node.id, node.kind, node.claimed?)

variable {node twin source target sourceTwin targetTwin : Node}

theorem role_eq_iff :
    twin.role = node.role ↔
      twin.id = node.id ∧ twin.kind = node.kind ∧ twin.claimed? = node.claimed? := by
  simp [role]

theorem role_claimedFor (same : twin.role = node.role) (line : Option LineKind) :
    (twin.claimedFor line).role = (node.claimedFor line).role := by
  obtain ⟨id, kind, claimed⟩ := role_eq_iff.mp same
  by_cases reroute : node.kind = .reroute
  · rw [role_eq_iff, claimed?_claimedFor reroute, claimed?_claimedFor (kind.trans reroute)]
    simp [id, kind, claimed]
  · rw [claimedFor_of_kind reroute, claimedFor_of_kind (kind.symm ▸ reroute), same]

/-- The rules look at the roles of the two ends. -/
theorem judge_congr (sources : sourceTwin.role = source.role)
    (targets : targetTwin.role = target.role) (connection : Connection) :
    sourceTwin.judge targetTwin connection = source.judge target connection := by
  obtain ⟨_, sourceKind, sourceClaimed⟩ := role_eq_iff.mp sources
  obtain ⟨_, targetKind, targetClaimed⟩ := role_eq_iff.mp targets
  unfold judge lineTo reroutesTo joins feeds
  rw [sourceKind, sourceClaimed, targetKind, targetClaimed]

end Node

theorem map_updateFirst_congr {α : Type} {f : Node → α} {id : NodeId} {change : Node → Node}
    (sees : ∀ node twin, f twin = f node → twin.id = node.id)
    (keeps : ∀ node twin, f twin = f node → f (change twin) = f (change node))
    {nodes twins : List Node} (same : twins.map f = nodes.map f) :
    (updateFirst id change twins).map f = (updateFirst id change nodes).map f := by
  induction nodes generalizing twins with
  | nil =>
      rw [List.map_nil, List.map_eq_nil_iff] at same
      rw [same]
  | cons node nodes ih =>
      obtain ⟨twin, rest, parts, first, others⟩ := List.map_eq_cons_iff.mp same
      rw [parts, updateFirst, updateFirst, sees node twin first]
      split
      · rw [List.map_cons, List.map_cons, keeps node twin first, others]
      · rw [List.map_cons, List.map_cons, first, ih others]

theorem Graph.map_firstOfEach_congr {nodes twins : List Node}
    (same : twins.map Node.id = nodes.map Node.id) (seen : List NodeId) :
    (firstOfEach seen twins).map Node.id = (firstOfEach seen nodes).map Node.id := by
  induction nodes generalizing twins seen with
  | nil =>
      rw [List.map_nil, List.map_eq_nil_iff] at same
      rw [same]
  | cons node nodes ih =>
      obtain ⟨twin, rest, parts, first, others⟩ := List.map_eq_cons_iff.mp same
      rw [parts, firstOfEach, firstOfEach, first]
      split
      · exact ih others seen
      · rw [List.map_cons, List.map_cons, first, ih others]

namespace Graph

structure SameStructure (graph other : Graph) : Prop where
  nodes : other.nodes.map Node.role = graph.nodes.map Node.role
  edges : other.edges.map Edge.connection = graph.edges.map Edge.connection

instance (graph other : Graph) : Decidable (SameStructure graph other) :=
  decidable_of_iff
    (other.nodes.map Node.role = graph.nodes.map Node.role ∧
      other.edges.map Edge.connection = graph.edges.map Edge.connection)
    ⟨fun ⟨nodes, edges⟩ => ⟨nodes, edges⟩, fun same => ⟨same.nodes, same.edges⟩⟩

variable {graph other next : Graph} {line : LineKind} {α : Type}

namespace SameStructure

theorem refl (graph : Graph) : SameStructure graph graph := ⟨rfl, rfl⟩

theorem trans (first : SameStructure graph other) (second : SameStructure other next) :
    SameStructure graph next :=
  ⟨second.nodes.trans first.nodes, second.edges.trans first.edges⟩

variable (same : SameStructure graph other)

include same

/-! ### What the walks see -/

theorem node? (id : NodeId) :
    Option.Rel (fun node twin => twin.role = node.role) (graph.node? id) (other.node? id) := by
  have looked (graph : Graph) : (graph.node? id).map Node.role =
      (graph.nodes.map Node.role).find? (fun role => role.1 = id) := by
    rw [List.find?_map]
    rfl
  have roles : (other.node? id).map Node.role = (graph.node? id).map Node.role := by
    rw [looked, looked, same.nodes]
  generalize graph.node? id = before, other.node? id = after at roles
  cases before with
  | none =>
      rw [Option.map_none, Option.map_eq_none_iff] at roles
      rw [roles]
      exact Option.Rel.none
  | some node =>
      obtain ⟨twin, isTwin, role⟩ := Option.map_eq_some_iff.mp roles
      rw [isTwin]
      exact Option.Rel.some role

theorem sameFor (line : LineKind) (id : NodeId) :
    Option.Rel (SameFor line) (graph.node? id) (other.node? id) := by
  refine rel_imp (same.node? id) ?_
  intro node twin role
  obtain ⟨sameId, kind, claimed⟩ := Node.role_eq_iff.mp role
  exact ⟨sameId, kind, by rw [claimed]⟩

/-- What is read off the edges is the same, if it is read off what each of them connects. -/
theorem filterMap_edges {keep : Edge → Bool} {f g : Edge → Option α}
    (keeps : ∀ twin edge : Edge, twin.connection = edge.connection → keep twin = keep edge)
    (reads : ∀ twin edge : Edge, twin.connection = edge.connection → g twin = f edge) :
    (other.edges.filter keep).filterMap g = (graph.edges.filter keep).filterMap f := by
  refine filterMap_eq_filterMap_of_forall₂ (List.rel_filter ?_ ?_) reads
  · intro twin edge connects
    change keep twin = true ↔ keep edge = true
    rw [keeps twin edge connects]
  · exact forall₂_of_map_eq_map same.edges

theorem sight_eq {shown : Node → Option α}
    (shows : ∀ twin node : Node, twin.role = node.role → shown twin = shown node)
    {twin edge : Edge} (connects : twin.connection = edge.connection) :
    other.sight line shown twin = graph.sight line shown edge := by
  have ofEdge : graph.sight line shown twin = graph.sight line shown edge := by
    cases twin
    cases edge
    cases connects
    rfl
  rw [← ofEdge]
  apply sight_congr
  refine rel_imp (same.node? twin.source) ?_
  intro node other role
  obtain ⟨sameId, kind, claimed⟩ := Node.role_eq_iff.mp role
  exact ⟨⟨sameId, kind, by rw [claimed]⟩, fun _ => shows other node role⟩

theorem sameInto {shown : Node → Option α}
    (shows : ∀ twin node : Node, twin.role = node.role → shown twin = shown node) (id : NodeId) :
    SameInto graph other line shown shown id := by
  intro keep
  unfold incoming
  rw [List.filter_filter, List.filter_filter]
  refine same.filterMap_edges ?_ (fun _ _ connects => same.sight_eq shows connects)
  intro twin edge connects
  obtain ⟨_, _, target, targetHandle⟩ := Connection.mk.inj connects
  rw [target, targetHandle]

/-- The ids of the sources that a walk back finds and keeps. -/
theorem feedersInto_ids {keep : Node → Bool}
    (sees : ∀ twin node : Node, twin.role = node.role → keep twin = keep node)
    (id : NodeId) (handle : Handle) (line : LineKind) :
    ((other.feedersInto id handle line).filter keep).map Node.id =
      ((graph.feedersInto id handle line).filter keep).map Node.id := by
  have shows (twin node : Node) (role : twin.role = node.role) :
      (Option.guard keep twin).map Node.id = (Option.guard keep node).map Node.id := by
    unfold Option.guard
    rw [sees twin node role]
    split
    · exact congrArg some (Node.role_eq_iff.mp role).1
    · rfl
  rw [← List.filterMap_eq_filter, List.map_filterMap, List.map_filterMap]
  exact feedersInto_congr (fun id _ _ _ => same.sameInto shows id) (same.sameInto shows id) handle

theorem predecessors_ids (id : NodeId) :
    (other.predecessors id).map Node.id = (graph.predecessors id).map Node.id := by
  unfold predecessors
  apply map_firstOfEach_congr
  apply same.feedersInto_ids
  intro twin node role
  obtain ⟨sameId, kind, _⟩ := Node.role_eq_iff.mp role
  rw [sameId, kind]

theorem agentFor?_id (id : NodeId) :
    (other.agentFor? id).map Node.id = (graph.agentFor? id).map Node.id := by
  unfold agentFor?
  rw [← List.head?_filter, ← List.head?_filter, ← List.head?_map, ← List.head?_map,
    same.feedersInto_ids]
  intro twin node role
  obtain ⟨_, kind, _⟩ := Node.role_eq_iff.mp role
  rw [kind]

theorem successors {twin node : Node} (role : twin.role = node.role) :
    other.successors twin = graph.successors node := by
  obtain ⟨id, kind, _⟩ := Node.role_eq_iff.mp role
  unfold Graph.successors outgoing
  rw [id]
  refine same.filterMap_edges ?_ ?_
  · intro twin edge connects
    rw [(Connection.mk.inj connects).1]
  · intro twinEdge edge connects
    have ofEdge : graph.entered? node twinEdge = graph.entered? node edge := by
      cases twinEdge
      cases edge
      cases connects
      rfl
    rw [← ofEdge]
    exact entered?_congr kind (same.sameFor .execution twinEdge.target)

theorem sequence : other.sequence = graph.sequence := by
  refine sequence_congr ?_ ?_
  · intro id node found
    have related := same.node? id
    rw [found] at related
    generalize other.node? id = after at related
    cases related with
    | some role =>
        exact ⟨_, rfl, (Node.role_eq_iff.mp role).2.1, same.successors role⟩
  · have roles := congrArg (List.map (fun role => (role.1, role.2.1))) same.nodes
    rw [List.map_map, List.map_map] at roles
    exact roles

/-! ### What the rules decide -/

theorem judge (connection : Connection) : other.judge connection = graph.judge connection := by
  have sources := same.node? connection.source
  have targets := same.node? connection.target
  unfold Graph.judge
  generalize graph.node? connection.source = source, other.node? connection.source = sourceTwin,
    graph.node? connection.target = target, other.node? connection.target = targetTwin
    at sources targets
  cases sources with
  | none => rfl
  | some ofSource =>
      cases targets with
      | none => rfl
      | some ofTarget => exact Node.judge_congr ofSource ofTarget connection

theorem claim? (id : NodeId) (line : Option LineKind) :
    SameStructure (graph.claim? id line) (other.claim? id line) := by
  cases line with
  | none => exact same
  | some line =>
      refine ⟨map_updateFirst_congr ?_ ?_ same.nodes, same.edges⟩
      · intro node twin role
        exact (Node.role_eq_iff.mp role).1
      · intro node twin role
        exact Node.role_claimedFor role (some line)

theorem addEdge (connection : Connection) (id twinId : EdgeId) :
    SameStructure (graph.addEdge connection id).1 (other.addEdge connection twinId).1 := by
  unfold Graph.addEdge
  rw [same.judge]
  cases verdict : (graph.judge connection).verdict with
  | rejected => simpa only [verdict] using same
  | accepted line =>
      have claimed := same.claim? connection.target (graph.judge connection).claim
      simp only [verdict]
      refine ⟨claimed.nodes, ?_⟩
      rw [List.map_append, List.map_append, claimed.edges]
      rfl

end SameStructure

end Graph

/-! ### Texts of nodes -/

def Edit.IsUpdate : Edit → Prop
  | updateNode _ _ _ => True
  | _ => False

namespace Graph

theorem Change.sameStructure {edit : Edit} (change : Change graph edit next)
    (update : edit.IsUpdate) : SameStructure graph next := by
  cases change with
  | refused _ => exact SameStructure.refl graph
  | nodeUpdated found set =>
      refine ⟨map_updateFirst ?_, rfl⟩
      intro node isFound
      cases found.symm.trans isFound
      exact Node.role_eq_iff.mpr
        ⟨rfl, NodeData.kind_of_setField? set, NodeData.claimed?_of_setField? set⟩
  | _ => cases update

theorem sameStructure_run {edits : List Edit} (updates : ∀ edit ∈ edits, edit.IsUpdate)
    (graph : Graph) : SameStructure graph (graph.run edits) := by
  induction edits generalizing graph with
  | nil => exact SameStructure.refl graph
  | cons edit rest ih =>
      have first := (graph.change_edited edit).sameStructure (updates edit List.mem_cons_self)
      exact first.trans (ih (fun other member => updates other (List.mem_cons_of_mem edit member))
        (graph.edited edit))

/-- Two graphs are ruled alike: the order of the tasks and the ids of what feeds each node are
the same, and each connection gets the same verdict and leaves nodes of the same claims. -/
structure RuledAlike (graph other : Graph) : Prop where
  sequence : other.sequence = graph.sequence
  predecessors : ∀ id, (other.predecessors id).map Node.id = (graph.predecessors id).map Node.id
  agentFor : ∀ id, (other.agentFor? id).map Node.id = (graph.agentFor? id).map Node.id
  verdict : ∀ connection id twinId,
    (other.addEdge connection twinId).2 = (graph.addEdge connection id).2
  claims : ∀ connection id twinId,
    (other.addEdge connection twinId).1.nodes.map Node.role =
      (graph.addEdge connection id).1.nodes.map Node.role

theorem SameStructure.ruledAlike (same : SameStructure graph other) : RuledAlike graph other where
  sequence := same.sequence
  predecessors := same.predecessors_ids
  agentFor := same.agentFor?_id
  verdict := by
    intro connection id twinId
    rw [verdict_addEdge, verdict_addEdge, validate, validate, same.judge]
  claims := fun connection id twinId => (same.addEdge connection id twinId).nodes

/-- Structure alone decides what the rules make of a graph, and so no setting of texts shows in
it. -/
theorem structure_decides (graph : Graph) :
    (∀ other, SameStructure graph other → RuledAlike graph other) ∧
      ∀ edits : List Edit, (∀ edit ∈ edits, edit.IsUpdate) →
        RuledAlike graph (graph.run edits) := by
  constructor
  · intro other same
    exact same.ruledAlike
  · intro edits updates
    exact (sameStructure_run updates graph).ruledAlike

def drawnOnce : Graph :=
  { nodes :=
      [Node.plain .begin "s", Node.plain .task "a", Node.plain .task "b", Node.plain .agent "w",
        { id := "r", data := .reroute (some .execution) }, Node.plain .reroute "q"]
    edges :=
      [⟨"e1", "s", some .execOut, "a", some .execIn, true⟩,
        ⟨"e2", "a", some .execOut, "r", none, true⟩, ⟨"e3", "r", none, "b", some .execIn, true⟩,
        ⟨"e4", "w", some .agentOut, "b", some .agent, false⟩] }

def drawnAgain : Graph :=
  { nodes :=
      [{ id := "s", position := ⟨Binary64.zero, ⟨0x3FF8000000000000⟩⟩, data := .begin },
        { id := "a", data := .task { name := "b", description := "s" } },
        { id := "b", data := .task { expectedOutput := "a" } },
        { id := "w", data := .agent { name := "a", tools := "r, q" } },
        { id := "r", data := .reroute (some .execution) },
        { id := "q", position := ⟨⟨0xBFD0000000000000⟩, Binary64.zero⟩, data := .reroute none }]
    edges :=
      [⟨"e", "s", some .execOut, "a", some .execIn, false⟩,
        ⟨"e", "a", some .execOut, "r", none, false⟩, ⟨"e", "r", none, "b", some .execIn, false⟩,
        ⟨"e", "w", some .agentOut, "b", some .agent, true⟩] }

theorem drawnAgain_ruledAlike :
    drawnAgain ≠ drawnOnce ∧ SameStructure drawnOnce drawnAgain ∧
      drawnOnce.sequence = ["a", "b"] ∧ drawnAgain.sequence = ["a", "b"] ∧
      (drawnOnce.addEdge ⟨"w", some .agentOut, "q", none⟩ "e5").2 = .accepted .agent ∧
      (drawnAgain.addEdge ⟨"w", some .agentOut, "q", none⟩ "e").2 = .accepted .agent ∧
      RuledAlike drawnOnce drawnAgain ∧
      RuledAlike drawnOnce (drawnOnce.run
        [.updateNode "a" "name" "b", .updateNode "q" "claimedType" "agent",
          .updateNode "w" "tools" "r, q"]) := by
  obtain ⟨ofStructure, ofUpdates⟩ := structure_decides drawnOnce
  have same : SameStructure drawnOnce drawnAgain := by decide
  have alike := ofStructure drawnAgain same
  have order : drawnOnce.sequence = ["a", "b"] := by cbv
  have verdict : (drawnOnce.addEdge ⟨"w", some .agentOut, "q", none⟩ "e5").2 =
      .accepted .agent := by decide
  refine ⟨by decide, same, order, alike.sequence.trans order, verdict, ?_, alike, ?_⟩
  · exact (alike.verdict ⟨"w", some .agentOut, "q", none⟩ "e5" "e").trans verdict
  · apply ofUpdates
    simp [Edit.IsUpdate]

end Graph

end CrewCanvas
