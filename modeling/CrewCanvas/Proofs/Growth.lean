/-
Graphs that grow.

A grown graph has all edges of the graph that it comes from, and no node has changed but
reroutes that have made a claim.  Both walks only meet more in it: control flow leads wherever
it led, and a supply chain still brings its line.  An accepted edge makes a graph grow, so it
cuts nothing off.  A verdict looks at two nodes alone.  It lasts along every run of edits that
removes neither of them.
-/

import CrewCanvas.Proofs.DrawnLines
import CrewCanvas.Proofs.LinesApart
import CrewCanvas.Proofs.TaskFeeders

namespace CrewCanvas

namespace Graph

/-- A graph with more edges, in which reroutes may have made claims. -/
structure Grown (graph next : Graph) : Prop where
  edges : ∀ edge ∈ graph.edges, edge ∈ next.edges
  keeps : ∀ id, graph.Keeps next id
  settled : ∀ id node, graph.node? id = some node → node.kind ≠ .reroute →
    next.node? id = some node
  begins : next.beginNode?.map Node.id = graph.beginNode?.map Node.id

variable {graph next : Graph} {line : LineKind}

/-! ### Walks in a grown graph -/

section Walks

variable (grown : Grown graph next)

include grown

theorem ControlEdge.later {edge : Edge} {source target : Node}
    (step : graph.ControlEdge edge source target) :
    ∃ later entered, next.node? edge.source = some later ∧ entered.id = target.id ∧
      next.ControlEdge edge later entered := by
  obtain ⟨later, leaves, sourceGrows⟩ := grown.keeps edge.source source step.leaves
  obtain ⟨entered, enters, targetGrows⟩ := grown.keeps edge.target target step.enters
  refine ⟨later, entered, leaves, (id_of_node? enters).trans (id_of_node? step.enters).symm, ?_⟩
  exact
    { present := grown.edges edge step.present
      leaves
      enters
      noAgent := sourceGrows.kind.symm ▸ step.noAgent
      noAgentOutput := sourceGrows.kind.symm ▸ step.noAgentOutput
      admits := by
        rw [targetGrows.kind]
        exact step.admits.imp_right (And.imp_right (targetGrows.claimed .execution)) }

theorem Leads.later {avoided : List NodeId} {first last : NodeId}
    (leads : Leads graph avoided first last) : Leads next avoided first last := by
  induction leads with
  | @here id node fresh found =>
      obtain ⟨later, foundLater, _⟩ := grown.keeps id node found
      exact Leads.here fresh foundLater
  | @onward id _ _ node fresh found member _ ih =>
      obtain ⟨edge, target, step, entersNext⟩ := (mem_successors_iff (node?_id found)).mp member
      obtain ⟨later, entered, leaves, sameId, stepLater⟩ := step.later grown
      have atSource : edge.source = id :=
        (id_of_node? step.leaves).symm.trans (id_of_node? found)
      have foundLater : next.node? id = some later := atSource ▸ leaves
      refine Leads.onward fresh foundLater ?_ ih
      exact (mem_successors_iff (node?_id foundLater)).mpr
        ⟨edge, entered, stepLater, sameId.trans entersNext⟩

theorem SupplyChain.later {handle : Handle} {target source : Node} {edges : List Edge}
    (chain : graph.SupplyChain line handle target source edges) :
    ∃ later, next.node? source.id = some later ∧ source.Grows later ∧
      next.SupplyChain line handle target later edges := by
  induction chain with
  | @direct edge source present found enters into allowed =>
      obtain ⟨later, foundLater, grows⟩ := grown.keeps edge.source source found
      refine ⟨later, id_of_node? found ▸ foundLater, grows, ?_⟩
      exact SupplyChain.direct (grown.edges edge present) foundLater enters into
        (grows.kind.symm ▸ allowed)
  | @through edge edges source middle present found enters kind claimed allowed _ ih =>
      obtain ⟨later, foundLater, grows⟩ := grown.keeps edge.source source found
      obtain ⟨reroute, foundReroute, rerouteGrows, rest⟩ := ih
      refine ⟨later, id_of_node? found ▸ foundLater, grows, ?_⟩
      exact SupplyChain.through (grown.edges edge present) foundLater
        (id_of_node? enters ▸ foundReroute) (rerouteGrows.kind.trans kind)
        (rerouteGrows.claimed line claimed) (grows.kind.symm ▸ allowed) rest

/-- A chain from a node that is no reroute starts at the same node. -/
theorem SupplyChain.later_from {handle : Handle} {target source : Node} {edges : List Edge}
    (chain : graph.SupplyChain line handle target source edges) (kind : source.kind ≠ .reroute) :
    next.SupplyChain line handle target source edges := by
  obtain ⟨later, found, _, longer⟩ := chain.later grown
  cases found.symm.trans (grown.settled source.id source chain.found kind)
  exact longer

end Walks

structure NothingCutOff (graph next : Graph) : Prop where
  reached : ∀ id ∈ graph.reached, id ∈ next.reached
  predecessors : ∀ task ∈ graph.tasks, ∀ before ∈ graph.predecessors task.id,
    before ∈ next.predecessors task.id
  assigned : ∀ task ∈ graph.tasks, (graph.agentFor? task.id).isSome = true →
    (next.agentFor? task.id).isSome = true

theorem Grown.nothingCutOff (grown : Grown graph next) : NothingCutOff graph next where
  reached := by
    intro id reached
    obtain ⟨task, first, begins, leads⟩ := mem_reached_iff_leads.mp reached
    obtain ⟨node, found⟩ := leads.last_found
    obtain ⟨later, foundLater, grows⟩ := grown.keeps id node found
    obtain ⟨firstLater, beginsLater, sameId⟩ :=
      Option.map_eq_some_iff.mp (grown.begins.trans (congrArg (Option.map Node.id) begins))
    refine mem_reached_iff_leads.mpr ⟨?_, firstLater, beginsLater, sameId ▸ leads.later grown⟩
    exact (isTask_iff foundLater).mpr (grows.kind.trans ((isTask_iff found).mp task))
  predecessors := by
    intro task _ before predecessor
    obtain ⟨kind, different, edges, chain⟩ := mem_predecessors_iff.mp predecessor
    exact mem_predecessors_iff.mpr ⟨kind, different, edges, chain.later_from grown (by simp [kind])⟩
  assigned := by
    intro task _ assigned
    obtain ⟨agent, member, edges, chain⟩ := agentFor?_isSome_iff.mp assigned
    have kind := (mem_agents_iff.mp member).2
    have longer := chain.later_from grown (by simp [kind])
    exact agentFor?_isSome_iff.mpr
      ⟨agent, mem_agents_iff.mpr ⟨longer.mem_nodes, kind⟩, edges, longer⟩

/-! ### An accepted edge -/

theorem OneMore.grown {edge : Edge} {source : Node} (oneMore : OneMore graph next edge source) :
    Grown graph next := by
  obtain ⟨front, back, parts, moreParts⟩ := oneMore.edges
  obtain ⟨claim, nodes, _⟩ := oneMore.nodes
  constructor
  · intro other member
    rw [parts] at member
    rw [moreParts]
    exact (List.sublist_cons_self edge back).append_left front |>.subset member
  · exact keeps_claim? claim nodes
  · intro id node found kind
    rw [node?_of_nodes nodes]
    by_cases entered : id = edge.target
    · subst id
      rw [node?_claim? found, Node.claimedFor_of_kind kind]
    · rw [node?_claim?_other entered, found]
  · rw [beginId_eq, beginId_eq, oneMore.outline]

/-- An accepted connection is drawn as an edge, and nothing that walks found is cut off by it. -/
theorem addEdge_cuts_nothing_off {connection : Connection} {id : EdgeId}
    (accepted : (graph.addEdge connection id).2.isAccepted = true) :
    (∃ edge ∈ (graph.addEdge connection id).1.edges, edge.id = id ∧
      edge.connection = connection) ∧
    NothingCutOff graph (graph.addEdge connection id).1 := by
  have accepts : graph.Accepts connection := by
    unfold Accepts
    rw [← verdict_addEdge graph connection id]
    exact accepted
  obtain ⟨source, _, leaves, _, _⟩ := accepts_iff.mp accepts
  obtain ⟨line, oneMore⟩ := oneMore_addEdge leaves accepted
  obtain ⟨front, back, _, parts⟩ := oneMore.edges
  refine ⟨⟨Edge.ofConnection id connection line, ?_, rfl, rfl⟩, oneMore.grown.nothingCutOff⟩
  rw [parts]
  exact List.mem_append_right _ List.mem_cons_self

def lateSupply : Graph :=
  { nodes :=
      [Node.plain .begin "s", Node.plain .task "a", Node.plain .task "b",
        Node.plain .agent "v", Node.plain .agent "w", Node.plain .reroute "r",
        { id := "q", data := .reroute (some .agent) }]
    edges :=
      [⟨"e1", "r", none, "q", none, false⟩, ⟨"e2", "v", some .agentOut, "q", none, false⟩,
        ⟨"e3", "q", none, "a", some .agent, false⟩,
        ⟨"e4", "s", some .execOut, "a", some .execIn, true⟩,
        ⟨"e5", "a", some .execOut, "b", some .execIn, true⟩] }

/-- A line to the first reroute gives the task another agent, and takes nothing away. -/
theorem lateSupply_cuts_nothing_off :
    let fed := (lateSupply.addEdge ⟨"w", some .agentOut, "r", none⟩ "e6").1
    (lateSupply.addEdge ⟨"w", some .agentOut, "r", none⟩ "e6").2.isAccepted = true ∧
      lateSupply.reached = ["a", "b"] ∧ (lateSupply.predecessors "b").map Node.id = ["a"] ∧
      (lateSupply.agentFor? "a").map Node.id = some "v" ∧
      (fed.agentFor? "a").map Node.id = some "w" ∧
      (∃ edge ∈ fed.edges, edge.id = "e6" ∧ edge.connection = ⟨"w", some .agentOut, "r", none⟩) ∧
      NothingCutOff lateSupply fed := by
  have accepted :
      (lateSupply.addEdge ⟨"w", some .agentOut, "r", none⟩ "e6").2.isAccepted = true := by decide
  obtain ⟨drawn, kept⟩ := addEdge_cuts_nothing_off accepted
  exact ⟨accepted, by cbv, by cbv, by cbv, by cbv, drawn, kept⟩

end Graph

/-! ### Verdicts along runs -/

theorem LineKind.ofExecution_eq_execution_iff {isExecution : Bool} :
    ofExecution isExecution = execution ↔ isExecution = true := by
  cases isExecution <;> simp [ofExecution]

namespace Node

variable {source target : Node}

theorem lineTo_eq_execution_iff {handle : Option Handle} :
    source.lineTo target handle = .execution ↔
      handle = some .execIn ∨
        (source.claimed? = some .execution ∧ (target.kind = .reroute ∨ source.kind = .reroute)) := by
  unfold lineTo
  rw [LineKind.ofExecution_eq_execution_iff]
  simp only [Bool.or_eq_true, Bool.and_eq_true, beq_iff_eq, or_assoc]
  tauto

/-- An execution line is still one between later states of its ends. -/
theorem Grows.lineTo {source' target' : Node} (sourceGrows : source.Grows source')
    (targetGrows : target.Grows target') {handle : Option Handle}
    (execution : source.lineTo target handle = .execution) :
    source'.lineTo target' handle = .execution := by
  rw [lineTo_eq_execution_iff] at execution ⊢
  rw [sourceGrows.kind, targetGrows.kind]
  exact execution.imp_right (And.imp_left (sourceGrows.claimed .execution))

end Node

namespace Graph

variable {graph next : Graph} {connection : Connection}

theorem validate_of_found {source target : Node}
    (leaves : graph.node? connection.source = some source)
    (enters : graph.node? connection.target = some target) (accepts : graph.Accepts connection) :
    graph.validate connection = .accepted (source.lineTo target connection.targetHandle) := by
  unfold Accepts validate at accepts
  unfold validate
  cases verdict : (graph.judge connection).verdict with
  | rejected => simp [verdict, Verdict.isAccepted] at accepts
  | accepted line =>
      rw [judge_of_found leaves enters] at verdict
      rw [Node.line_of_judge verdict]

/-- A connection between two nodes that no edit removes is accepted again after a run, and drawn
as execution if it was before. -/
theorem accepts_along_run {edits : List Edit} (accepts : graph.Accepts connection)
    (source : Edit.removeNode connection.source ∉ edits)
    (target : Edit.removeNode connection.target ∉ edits) :
    (graph.run edits).Accepts connection ∧
      (graph.validate connection = .accepted .execution →
        (graph.run edits).validate connection = .accepted .execution) := by
  have keepsSource := keeps_run source graph
  have keepsTarget := keeps_run target graph
  have later := accepts.later keepsSource keepsTarget
  refine ⟨later, ?_⟩
  intro drawn
  obtain ⟨first, second, leaves, enters, _⟩ := accepts_iff.mp accepts
  obtain ⟨firstLater, leavesLater, sourceGrows⟩ := keepsSource first leaves
  obtain ⟨secondLater, entersLater, targetGrows⟩ := keepsTarget second enters
  rw [validate_of_found leaves enters accepts] at drawn
  have execution := sourceGrows.lineTo targetGrows (Verdict.accepted.inj drawn)
  rw [validate_of_found leavesLater entersLater later, execution]

def aroundReroute : List Edit :=
  [.addEdge ⟨"s", some .execOut, "q", none⟩ "e6", .removeNode "v", .updateNode "a" "name" "Draft",
    .splitEdge "e3" (Node.plain .reroute "p") "e7", .removeEdge "e1",
    .addNode (Node.plain .task "q"), .updateNode "q" "claimedType" "execution"]

theorem lateSupply_accepts_along_run :
    lateSupply.Accepts ⟨"q", none, "a", some .agent⟩ ∧
      lateSupply.validate ⟨"a", some .execOut, "b", some .execIn⟩ = .accepted .execution ∧
      (lateSupply.run aroundReroute).nodeIds = ["s", "a", "b", "w", "r", "q", "p"] ∧
      (lateSupply.run aroundReroute).Accepts ⟨"q", none, "a", some .agent⟩ ∧
      (lateSupply.run aroundReroute).validate ⟨"a", some .execOut, "b", some .execIn⟩ =
        .accepted .execution := by
  have stays (id : NodeId) (other : id ≠ "v") : Edit.removeNode id ∉ aroundReroute := by
    simp [aroundReroute, other]
  have outOfReroute : lateSupply.Accepts ⟨"q", none, "a", some .agent⟩ := by decide
  have outOfTask : lateSupply.validate ⟨"a", some .execOut, "b", some .execIn⟩ =
      .accepted .execution := by decide
  have kept := accepts_along_run outOfReroute (stays "q" (by decide)) (stays "a" (by decide))
  have acceptsLine : lateSupply.Accepts ⟨"a", some .execOut, "b", some .execIn⟩ := by decide
  have keptLine := accepts_along_run acceptsLine (stays "a" (by decide)) (stays "b" (by decide))
  exact ⟨outOfReroute, outOfTask, by decide, kept.1, keptLine.2 outOfTask⟩

end Graph

end CrewCanvas
