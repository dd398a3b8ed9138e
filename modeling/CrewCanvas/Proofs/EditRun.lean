/-
Runs of edits.

An edit is one of the six changes of a graph.  One that is refused leaves the graph.
Whatever an edit does, a node that it does not remove stays under its id with its
kind and with the claim it has made.
-/

import CrewCanvas.Proofs.Subdivision
import Mathlib.Data.List.Induction

namespace CrewCanvas

/-! ### Edits -/

inductive Edit
  | addNode (node : Node)
  | addEdge (connection : Connection) (id : EdgeId)
  | removeNode (id : NodeId)
  | removeEdge (id : EdgeId)
  | updateNode (id : NodeId) (field value : String)
  | splitEdge (id : EdgeId) (reroute : Node) (tailId : EdgeId)

/-- The graph an edit makes, or why it makes none.  A rejected connection makes the
graph it was proposed to. -/
def Edit.result (edit : Edit) (graph : Graph) : Except Error Graph :=
  match edit with
  | addNode node => graph.addNode node
  | addEdge connection id => .ok (graph.addEdge connection id).1
  | removeNode id => graph.removeNode id
  | removeEdge id => graph.removeEdge id
  | updateNode id field value => graph.updateNode id field value
  | splitEdge id reroute tailId => graph.splitEdge id reroute tailId

namespace Graph

/-- The graph after an edit: the old one where the edit is refused. -/
def edited (graph : Graph) (edit : Edit) : Graph :=
  match edit.result graph with
  | .ok next => next
  | .error _ => graph

def run (graph : Graph) (edits : List Edit) : Graph := edits.foldl edited graph

theorem run_concat (graph : Graph) (edits : List Edit) (edit : Edit) :
    graph.run (edits ++ [edit]) = (graph.run edits).edited edit := by
  unfold run
  rw [List.foldl_append, List.foldl_cons, List.foldl_nil]

inductive Change (graph : Graph) : Edit → Graph → Prop
  | refused {edit : Edit} {error : Error} :
      edit.result graph = .error error → Change graph edit graph
  | nodeAdded {node : Node} :
      graph.node? node.id = none → (node.kind = .begin → graph.beginNode? = none) →
        Change graph (.addNode node) { graph with nodes := graph.nodes ++ [node] }
  | edgeRejected {connection : Connection} {id : EdgeId} :
      (graph.judge connection).verdict = .rejected → Change graph (.addEdge connection id) graph
  | edgeAdded {connection : Connection} {id : EdgeId} {line : LineKind} :
      (graph.judge connection).verdict = .accepted line →
        Change graph (.addEdge connection id)
          { nodes := (graph.claim? connection.target (graph.judge connection).claim).nodes
            edges := graph.edges ++ [Edge.ofConnection id connection line] }
  | nodeRemoved {id : NodeId} {node : Node} :
      graph.node? id = some node →
        Change graph (.removeNode id)
          { nodes := graph.nodes.filter (fun node => node.id ≠ id)
            edges := graph.edges.filter (fun edge => !edge.touches id) }
  | edgeRemoved {id : EdgeId} {edge : Edge} :
      graph.edge? id = some edge →
        Change graph (.removeEdge id)
          { graph with edges := graph.edges.filter (fun edge => edge.id ≠ id) }
  | nodeUpdated {id : NodeId} {field value : String} {node : Node} {data : NodeData} :
      graph.node? id = some node → node.data.setField? field value = some data →
        Change graph (.updateNode id field value)
          { graph with nodes := updateFirst id (fun node => { node with data }) graph.nodes }
  | edgeSplit {id tailId : EdgeId} {given : Node} {next : Graph}
      (parts : Subdivision graph next given) :
      graph.splitEdge id given tailId = .ok next → graph.edge? id = some parts.edge →
        Change graph (.splitEdge id given tailId) next

theorem edges_claim? (graph : Graph) (id : NodeId) (line : Option LineKind) :
    (graph.claim? id line).edges = graph.edges := by
  cases line <;> rfl

theorem change_addEdge (graph : Graph) (connection : Connection) (id : EdgeId) :
    Change graph (.addEdge connection id) (graph.addEdge connection id).1 := by
  unfold addEdge
  cases verdict : (graph.judge connection).verdict with
  | rejected =>
      simp only [verdict]
      exact Change.edgeRejected verdict
  | accepted line =>
      simp only [verdict, edges_claim?]
      exact Change.edgeAdded verdict

theorem verdict_addEdge (graph : Graph) (connection : Connection) (id : EdgeId) :
    (graph.addEdge connection id).2 = graph.validate connection := by
  unfold addEdge validate
  cases verdict : (graph.judge connection).verdict with
  | rejected => simp only [verdict]
  | accepted line => simp only [verdict]

theorem change_of_result {graph next : Graph} {edit : Edit} (made : edit.result graph = .ok next) :
    Change graph edit next := by
  cases edit with
  | addNode node =>
      obtain ⟨fresh, begins, shape⟩ := addNode_eq_ok_iff.mp made
      subst shape
      exact Change.nodeAdded fresh begins
  | addEdge connection id =>
      cases made
      exact graph.change_addEdge connection id
  | removeNode id =>
      change graph.removeNode id = .ok next at made
      unfold removeNode at made
      cases found : graph.node? id with
      | none => simp [found] at made
      | some node =>
          simp only [found] at made
          cases made
          exact Change.nodeRemoved found
  | removeEdge id =>
      change graph.removeEdge id = .ok next at made
      unfold removeEdge at made
      cases found : graph.edge? id with
      | none => simp [found] at made
      | some edge =>
          simp only [found] at made
          cases made
          exact Change.edgeRemoved found
  | updateNode id field value =>
      change graph.updateNode id field value = .ok next at made
      unfold updateNode at made
      cases found : graph.node? id with
      | none => simp [found] at made
      | some node =>
          simp only [found] at made
          cases set : node.data.setField field value with
          | error error => simp [set, Except.map] at made
          | ok data =>
              simp only [set, Except.map] at made
              cases made
              exact Change.nodeUpdated found (NodeData.setField_eq_ok_iff.mp set)
  | splitEdge id reroute tailId =>
      obtain ⟨parts, found⟩ := splitEdge_subdivision made
      exact Change.edgeSplit parts made found

theorem change_edited (graph : Graph) (edit : Edit) : Change graph edit (graph.edited edit) := by
  unfold edited
  cases made : edit.result graph with
  | error error => exact Change.refused made
  | ok next => exact change_of_result made

end Graph

/-! ### What stays -/

/-- A later state of a node: its kind stays, and so does a claim it has made. -/
structure Node.Grows (node later : Node) : Prop where
  kind : later.kind = node.kind
  claimed : ∀ line, node.claimed? = some line → later.claimed? = some line

namespace Node.Grows

theorem refl (node : Node) : node.Grows node :=
  ⟨rfl, fun _ claimed => claimed⟩

theorem trans {node later last : Node} (first : node.Grows later) (second : later.Grows last) :
    node.Grows last where
  kind := second.kind.trans first.kind
  claimed := fun line claimed => second.claimed line (first.claimed line claimed)

theorem unclaimed {node later : Node} (grows : node.Grows later)
    (unclaimed : later.claimed? = none) : node.claimed? = none := by
  cases claimed : node.claimed? with
  | none => rfl
  | some line =>
      rw [grows.claimed line claimed] at unclaimed
      cases unclaimed

theorem claim (node : Node) (line : LineKind) :
    node.Grows { node with data := node.data.claim line } := by
  refine ⟨NodeData.kind_claim node.data line, ?_⟩
  intro kept claimed
  obtain ⟨id, position, data⟩ := node
  cases data with
  | reroute before =>
      cases claimed
      rfl
  | begin => cases claimed
  | agent data => cases claimed
  | task data => cases claimed

theorem setField {node : Node} {field value : String} {data : NodeData}
    (set : node.data.setField? field value = some data) : node.Grows { node with data } := by
  refine ⟨NodeData.kind_of_setField? set, ?_⟩
  intro line claimed
  exact (NodeData.claimed?_of_setField? set).trans claimed

end Node.Grows

theorem find?_updateFirst_self {id : NodeId} {change : Node → Node}
    (keepsId : ∀ node, (change node).id = node.id) (nodes : List Node) :
    (updateFirst id change nodes).find? (fun node => node.id = id) =
      (nodes.find? (fun node => node.id = id)).map change := by
  induction nodes with
  | nil => rfl
  | cons first rest ih =>
      by_cases same : first.id = id
      · simp [updateFirst, same, keepsId]
      · simp [updateFirst, same, ih]

theorem find?_updateFirst_other {id other : NodeId} {change : Node → Node}
    (keepsId : ∀ node, (change node).id = node.id) (different : other ≠ id) (nodes : List Node) :
    (updateFirst id change nodes).find? (fun node => node.id = other) =
      nodes.find? (fun node => node.id = other) := by
  induction nodes with
  | nil => rfl
  | cons first rest ih =>
      by_cases same : first.id = id
      · have unlike : id ≠ other := Ne.symm different
        simp [updateFirst, same, keepsId, unlike]
      · simp only [updateFirst, if_neg same, List.find?_cons, ih]

namespace Graph

/-- The node with an id stays: the other graph has a later state of it. -/
def Keeps (graph next : Graph) (id : NodeId) : Prop :=
  ∀ node, graph.node? id = some node → ∃ later, next.node? id = some later ∧ node.Grows later

section Keeps

variable {graph next : Graph}

theorem Keeps.refl (graph : Graph) (id : NodeId) : graph.Keeps graph id :=
  fun node found => ⟨node, found, Node.Grows.refl node⟩

theorem Keeps.trans {last : Graph} {id : NodeId} (first : graph.Keeps next id)
    (second : next.Keeps last id) : graph.Keeps last id := by
  intro node found
  obtain ⟨later, foundLater, grows⟩ := first node found
  obtain ⟨latest, foundLatest, growsOn⟩ := second later foundLater
  exact ⟨latest, foundLatest, grows.trans growsOn⟩

theorem Keeps.grows {id : NodeId} {node later : Node} (keeps : graph.Keeps next id)
    (found : graph.node? id = some node) (foundLater : next.node? id = some later) :
    node.Grows later := by
  obtain ⟨kept, foundKept, grows⟩ := keeps node found
  cases foundKept.symm.trans foundLater
  exact grows

theorem keeps_of_same (same : ∀ id node, graph.node? id = some node → next.node? id = some node)
    (id : NodeId) : graph.Keeps next id := by
  intro node found
  exact ⟨node, same id node found, Node.Grows.refl node⟩

theorem node?_of_nodes (same : next.nodes = graph.nodes) (id : NodeId) :
    next.node? id = graph.node? id := by
  unfold node?
  rw [same]

theorem keeps_of_nodes (same : next.nodes = graph.nodes) (id : NodeId) : graph.Keeps next id := by
  refine keeps_of_same ?_ id
  intro other node found
  rw [node?_of_nodes same, found]

/-- Without a node the others are found as before. -/
theorem node?_of_removed {removed id : NodeId}
    (nodes : next.nodes = graph.nodes.filter (fun node => node.id ≠ removed))
    (other : id ≠ removed) : next.node? id = graph.node? id := by
  unfold node?
  rw [nodes, List.find?_filter]
  congr 1
  funext candidate
  by_cases same : candidate.id = id
  · simp [same, other]
  · simp [same]

theorem keeps_of_updateFirst {changed : NodeId} {change : Node → Node}
    (nodes : next.nodes = updateFirst changed change graph.nodes)
    (keepsId : ∀ node, (change node).id = node.id)
    (grows : ∀ node, graph.node? changed = some node → node.Grows (change node)) (id : NodeId) :
    graph.Keeps next id := by
  intro node found
  unfold node? at found ⊢
  rw [nodes]
  by_cases same : id = changed
  · subst id
    rw [find?_updateFirst_self keepsId, found]
    exact ⟨change node, rfl, grows node found⟩
  · rw [find?_updateFirst_other keepsId same]
    exact ⟨node, found, Node.Grows.refl node⟩

theorem keeps_claim? (line : Option LineKind) {target : NodeId}
    (nodes : next.nodes = (graph.claim? target line).nodes) (id : NodeId) :
    graph.Keeps next id := by
  cases line with
  | none => exact keeps_of_nodes nodes id
  | some line =>
      exact keeps_of_updateFirst nodes (fun _ => rfl) (fun node _ => Node.Grows.claim node line) id

/-- No edit but its removal takes a node away or undoes its claim. -/
theorem Change.keeps {edit : Edit} (change : Change graph edit next) {id : NodeId}
    (stays : edit ≠ .removeNode id) : graph.Keeps next id := by
  cases change with
  | refused _ => exact keeps_of_nodes rfl id
  | nodeAdded _ _ =>
      refine keeps_of_same ?_ id
      intro other node found
      exact node?_append rfl found
  | edgeRejected _ => exact keeps_of_nodes rfl id
  | edgeAdded _ => exact keeps_claim? _ rfl id
  | @nodeRemoved removed _ _ =>
      have other : id ≠ removed := by
        intro same
        exact stays (congrArg Edit.removeNode same.symm)
      intro node found
      exact ⟨node, (node?_of_removed rfl other).trans found, Node.Grows.refl node⟩
  | edgeRemoved _ => exact keeps_of_nodes rfl id
  | @nodeUpdated _ _ _ updated data foundNode set =>
      refine keeps_of_updateFirst rfl ?_ ?_ id
      · intro node
        rfl
      · intro node found
        rw [foundNode] at found
        cases found
        exact Node.Grows.setField set
  | edgeSplit parts _ _ => exact keeps_of_same (fun _ _ found => parts.node?_of_some found) id

end Keeps

/-! ### Where edges come from -/

/-- The origin of an edge of a changed graph: it was there, it was accepted, or it is
one half of the edge that was split. -/
inductive EdgeOrigin (graph next : Graph) (edge : Edge) : Edit → Prop
  | old {edit : Edit} : edge ∈ graph.edges → EdgeOrigin graph next edge edit
  | added {connection : Connection} {id : EdgeId} {line : LineKind} :
      (graph.judge connection).verdict = .accepted line →
        edge = Edge.ofConnection id connection line →
        next.nodes = (graph.claim? connection.target (graph.judge connection).claim).nodes →
        EdgeOrigin graph next edge (.addEdge connection id)
  | head {id tailId : EdgeId} {given : Node} (parts : Subdivision graph next given) :
      edge = parts.edge.head parts.reroute.id →
        EdgeOrigin graph next edge (.splitEdge id given tailId)
  | tail {id tailId : EdgeId} {given : Node} (parts : Subdivision graph next given) :
      edge = parts.edge.tail parts.reroute.id parts.tailId →
        EdgeOrigin graph next edge (.splitEdge id given tailId)

theorem Change.edgeOrigin {graph next : Graph} {edit : Edit} (change : Change graph edit next)
    {edge : Edge} (member : edge ∈ next.edges) : EdgeOrigin graph next edge edit := by
  cases change with
  | refused _ => exact EdgeOrigin.old member
  | nodeAdded _ _ => exact EdgeOrigin.old member
  | edgeRejected _ => exact EdgeOrigin.old member
  | edgeAdded verdict =>
      rcases List.mem_append.mp member with old | added
      · exact EdgeOrigin.old old
      · exact EdgeOrigin.added verdict (List.mem_singleton.mp added) rfl
  | nodeRemoved _ => exact EdgeOrigin.old (List.mem_filter.mp member).1
  | edgeRemoved _ => exact EdgeOrigin.old (List.mem_filter.mp member).1
  | nodeUpdated _ _ => exact EdgeOrigin.old member
  | edgeSplit parts _ _ =>
      rcases parts.mem_nextEdges member with old | isHead | isTail
      · exact EdgeOrigin.old old
      · exact EdgeOrigin.head parts isHead
      · exact EdgeOrigin.tail parts isTail

/-! ### Whole runs -/

theorem run_append (graph : Graph) (edits later : List Edit) :
    graph.run (edits ++ later) = (graph.run edits).run later :=
  List.foldl_append

/-- What every edit keeps, a run keeps. -/
theorem run_preserves {Holds : Graph → Prop}
    (step : ∀ {graph next : Graph} {edit : Edit}, Change graph edit next → Holds graph → Holds next)
    {graph : Graph} (start : Holds graph) (edits : List Edit) : Holds (graph.run edits) := by
  induction edits generalizing graph with
  | nil => exact start
  | cons edit rest ih => exact ih (step (graph.change_edited edit) start)

/-- A property that an edit keeps exactly if it fits holds along a run exactly if every
edit of the run fits. -/
theorem along_run_iff {Holds : Graph → Prop} {Fits : Edit → Graph → Prop}
    (step : ∀ {graph next : Graph} {edit : Edit}, Change graph edit next → Holds graph →
      (Holds next ↔ Fits edit graph))
    {graph : Graph} (start : Holds graph) (edits : List Edit) :
    (∀ earlier, earlier <+: edits → Holds (graph.run earlier)) ↔
      ∀ earlier edit, earlier ++ [edit] <+: edits → Fits edit (graph.run earlier) := by
  constructor
  · intro holds earlier edit within
    have before := holds earlier ((List.prefix_append earlier [edit]).trans within)
    have after := holds (earlier ++ [edit]) within
    rw [run_concat] at after
    exact (step (change_edited _ edit) before).mp after
  · intro fits earlier
    induction earlier using List.reverseRecOn with
    | nil =>
        intro _
        exact start
    | append_singleton earlier edit ih =>
        intro within
        have before := ih ((List.prefix_append earlier [edit]).trans within)
        rw [run_concat]
        exact (step (change_edited _ edit) before).mpr (fits earlier edit within)

/-- A run that does not remove a node keeps it. -/
theorem keeps_run {edits : List Edit} {id : NodeId} (stays : .removeNode id ∉ edits)
    (graph : Graph) : graph.Keeps (graph.run edits) id := by
  induction edits generalizing graph with
  | nil => exact Keeps.refl graph id
  | cons edit rest ih =>
      rw [List.mem_cons, not_or] at stays
      have first := (graph.change_edited edit).keeps (Ne.symm stays.1)
      exact first.trans (ih stays.2 (graph.edited edit))

end Graph

end CrewCanvas
