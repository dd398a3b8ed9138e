/-
Well-formed graphs.

A graph is well formed if no two nodes and no two edges share an id, at most one node
is a begin node and both ends of every edge are there.  Every edit keeps that, as long
as an added edge has a new id.
-/

import CrewCanvas.Proofs.LegalEdges
import CrewCanvas.Proofs.Lists
import Mathlib.Data.List.Nodup

namespace CrewCanvas

namespace Graph

def OneBegin (graph : Graph) : Prop := (graph.nodes.map Node.kind).count .begin ≤ 1

instance (graph : Graph) : Decidable graph.OneBegin :=
  inferInstanceAs (Decidable (_ ≤ 1))

structure WellFormed (graph : Graph) : Prop where
  uniqueNodes : graph.UniqueNodes
  uniqueEdges : graph.UniqueEdges
  oneBegin : graph.OneBegin
  endsPresent : graph.EndsPresent

instance (graph : Graph) : Decidable graph.WellFormed :=
  decidable_of_iff
    (graph.UniqueNodes ∧ graph.UniqueEdges ∧ graph.OneBegin ∧ graph.EndsPresent)
    ⟨fun ⟨nodes, edges, begins, ends⟩ => ⟨nodes, edges, begins, ends⟩,
      fun formed => ⟨formed.1, formed.2, formed.3, formed.4⟩⟩

def IdsApart (graph : Graph) : Prop := ∀ id ∈ graph.nodeIds, id ∉ graph.edgeIds

instance (graph : Graph) : Decidable graph.IdsApart :=
  inferInstanceAs (Decidable (∀ id ∈ graph.nodeIds, _))

theorem wellFormed_empty : empty.WellFormed where
  uniqueNodes := List.nodup_nil
  uniqueEdges := List.nodup_nil
  oneBegin := Nat.zero_le 1
  endsPresent := by
    intro edge member
    cases member

variable {graph next : Graph}

theorem edge?_eq_none_iff {id : EdgeId} : graph.edge? id = none ↔ id ∉ graph.edgeIds := by
  simp [edge?, edgeIds]

theorem beginNode?_eq_none_iff :
    graph.beginNode? = none ↔ (graph.nodes.map Node.kind).count .begin = 0 := by
  rw [List.count_eq_zero]
  simp [beginNode?]

/-! ### Nodes that are changed in place -/

theorem map_updateFirst {α : Type} {f : Node → α} {id : NodeId} {change : Node → Node}
    {nodes : List Node}
    (keeps : ∀ node, nodes.find? (fun node => node.id = id) = some node →
      f (change node) = f node) :
    (updateFirst id change nodes).map f = nodes.map f := by
  induction nodes with
  | nil => rfl
  | cons first rest ih =>
      by_cases same : first.id = id
      · rw [updateFirst, if_pos same, List.map_cons, List.map_cons,
          keeps first (List.find?_cons_of_pos (by simpa using same))]
      · rw [updateFirst, if_neg same, List.map_cons, List.map_cons, ih]
        intro node found
        exact keeps node ((List.find?_cons_of_neg (by simpa using same)).trans found)

theorem map_claim? {α : Type} {f : Node → α}
    (keeps : ∀ node line, f { node with data := node.data.claim line } = f node)
    (graph : Graph) (id : NodeId) (line : Option LineKind) :
    (graph.claim? id line).nodes.map f = graph.nodes.map f := by
  cases line with
  | none => rfl
  | some line => exact map_updateFirst (fun node _ => keeps node line)

theorem nodeIds_claim? (graph : Graph) (id : NodeId) (line : Option LineKind) :
    (graph.claim? id line).nodeIds = graph.nodeIds :=
  map_claim? (fun _ _ => rfl) graph id line

theorem kinds_claim? (graph : Graph) (id : NodeId) (line : Option LineKind) :
    (graph.claim? id line).nodes.map Node.kind = graph.nodes.map Node.kind :=
  map_claim? (fun node line => NodeData.kind_claim node.data line) graph id line

theorem nodeIds_updateFirst (graph : Graph) (id : NodeId) (data : NodeData) :
    nodeIds { graph with nodes := updateFirst id (fun node => { node with data }) graph.nodes } =
      graph.nodeIds :=
  map_updateFirst (fun _ _ => rfl)

theorem Keeps.mem_nodeIds {id : NodeId} (keeps : graph.Keeps next id)
    (member : id ∈ graph.nodeIds) : id ∈ next.nodeIds := by
  obtain ⟨node, found⟩ := mem_nodeIds_iff.mp member
  obtain ⟨later, foundLater, _⟩ := keeps node found
  exact mem_nodeIds_iff.mpr ⟨later, foundLater⟩

/-- A node that was there before is an earlier state of the one that is there now. -/
theorem Keeps.earlier {id : NodeId} {later : Node} (keeps : graph.Keeps next id)
    (present : id ∈ graph.nodeIds) (found : next.node? id = some later) :
    ∃ node, graph.node? id = some node ∧ node.Grows later := by
  obtain ⟨node, foundNode⟩ := mem_nodeIds_iff.mp present
  exact ⟨node, foundNode, keeps.grows foundNode found⟩

/-! ### Edges of different ids -/

theorem UniqueEdges.others (unique : graph.UniqueEdges) {front back : List Edge} {edge : Edge}
    (parts : graph.edges = front ++ edge :: back) : edge.id ∉ (front ++ back).map Edge.id :=
  others_of_nodup unique parts

/-! ### Edges that are split -/

theorem splitEdge_map {α : Type} {f : Node → α}
    (keeps : ∀ node data, f { node with data } = f node) {id tailId : EdgeId} {given : Node}
    (split : graph.splitEdge id given tailId = .ok next) :
    next.nodes.map f = graph.nodes.map f ++ [f given] := by
  obtain ⟨edge, source, _, _, _, _, _, shape⟩ := splitEdge_eq_ok_iff.mp split
  have claimed : f (given.claimedFor (splitClaim source edge.sourceHandle)) = f given := by
    cases splitClaim source edge.sourceHandle with
    | none => rfl
    | some line => exact keeps given (given.data.claim line)
  rw [shape, List.map_append, List.map_singleton, claimed]

theorem splitEdge_edgeIds {id tailId : EdgeId} {given : Node}
    (split : graph.splitEdge id given tailId = .ok next) :
    next.edgeIds = (Edge.subdivide id given.id tailId graph.edges).map Edge.id ∧
      tailId ∉ graph.edgeIds := by
  obtain ⟨edge, source, _, _, _, _, absent, shape⟩ := splitEdge_eq_ok_iff.mp split
  exact ⟨by rw [shape, edgeIds], edge?_eq_none_iff.mp absent⟩

end Graph

theorem Edge.mem_subdivide_ids {id tailId other : EdgeId} {reroute : NodeId} {edges : List Edge}
    (member : other ∈ (subdivide id reroute tailId edges).map Edge.id) :
    other ∈ edges.map Edge.id ∨ other = tailId := by
  induction edges with
  | nil => cases member
  | cons first rest ih =>
      unfold subdivide at member
      split at member
      · rcases List.mem_cons.mp member with isHead | later
        · exact Or.inl (List.mem_cons.mpr (Or.inl isHead))
        · rcases List.mem_cons.mp later with isTail | old
          · exact Or.inr isTail
          · exact Or.inl (List.mem_cons_of_mem _ old)
      · rcases List.mem_cons.mp member with isFirst | later
        · exact Or.inl (List.mem_cons.mpr (Or.inl isFirst))
        · exact (ih later).imp_left (List.mem_cons_of_mem _)

theorem Edge.subdivide_ids_nodup {id tailId : EdgeId} {reroute : NodeId} {edges : List Edge}
    (unique : (edges.map Edge.id).Nodup) (fresh : tailId ∉ edges.map Edge.id) :
    ((subdivide id reroute tailId edges).map Edge.id).Nodup := by
  induction edges with
  | nil => exact List.nodup_nil
  | cons first rest ih =>
      rw [List.map_cons, List.nodup_cons] at unique
      rw [List.map_cons, List.mem_cons, not_or] at fresh
      unfold subdivide
      split
      · refine List.nodup_cons.mpr ⟨?_, List.nodup_cons.mpr ⟨fresh.2, unique.2⟩⟩
        intro member
        rcases List.mem_cons.mp member with isTail | old
        · exact fresh.1 isTail.symm
        · exact unique.1 old
      · refine List.nodup_cons.mpr ⟨?_, ih unique.2 fresh.2⟩
        intro member
        rcases Edge.mem_subdivide_ids member with old | isTail
        · exact unique.1 old
        · exact fresh.1 isTail.symm

/-! ### What an edit brings in -/

namespace Edit

def newNode? : Edit → Option Node
  | addNode node => some node
  | splitEdge _ reroute _ => some reroute
  | _ => none

def newEdge? : Edit → Option EdgeId
  | addEdge _ id => some id
  | splitEdge _ _ tailId => some tailId
  | _ => none

/-- An added edge gets an id that no edge has.  A split asks for that itself. -/
def NewEdgeIsFresh (edit : Edit) (graph : Graph) : Prop :=
  ∀ id, edit.newEdge? = some id → id ∉ graph.edgeIds

structure NewIdsApart (edit : Edit) (graph : Graph) : Prop where
  node : ∀ node, edit.newNode? = some node → node.id ∉ graph.edgeIds
  edge : ∀ id, edit.newEdge? = some id → id ∉ graph.nodeIds
  each : ∀ node, edit.newNode? = some node → edit.newEdge? ≠ some node.id

theorem newIdsApart_of_none {edit : Edit} (graph : Graph) (noNode : edit.newNode? = none)
    (noEdge : edit.newEdge? = none) : edit.NewIdsApart graph := by
  constructor
  · simp [noNode]
  · simp [noEdge]
  · simp [noNode]

end Edit

namespace Graph

variable {graph next : Graph} {edit : Edit}

/-- An edit changes nothing but the data of a node that stays. -/
theorem Change.mem_map (change : Change graph edit next) {α : Type} {f : Node → α}
    (keeps : ∀ node data, f { node with data } = f node) {x : α}
    (member : x ∈ next.nodes.map f) :
    x ∈ graph.nodes.map f ∨ ∃ node, edit.newNode? = some node ∧ f node = x := by
  cases change with
  | refused _ => exact Or.inl member
  | @nodeAdded node _ _ =>
      rw [List.map_append, List.map_singleton, List.mem_append, List.mem_singleton] at member
      exact member.imp_right (fun same => ⟨node, rfl, same.symm⟩)
  | edgeRejected _ => exact Or.inl member
  | edgeAdded _ => exact Or.inl (map_claim? (fun node _ => keeps node _) graph _ _ ▸ member)
  | nodeRemoved _ => exact Or.inl ((List.filter_sublist.map f).subset member)
  | edgeRemoved _ => exact Or.inl member
  | nodeUpdated _ _ => exact Or.inl (map_updateFirst (fun node _ => keeps node _) ▸ member)
  | @edgeSplit _ _ given _ _ made _ =>
      rw [splitEdge_map keeps made, List.mem_append, List.mem_singleton] at member
      exact member.imp_right (fun same => ⟨given, rfl, same.symm⟩)

theorem Change.mem_nodeIds (change : Change graph edit next) {id : NodeId}
    (member : id ∈ next.nodeIds) :
    id ∈ graph.nodeIds ∨ ∃ node, edit.newNode? = some node ∧ node.id = id :=
  change.mem_map (fun _ _ => rfl) member

theorem Change.mem_edgeIds (change : Change graph edit next) {id : EdgeId}
    (member : id ∈ next.edgeIds) : id ∈ graph.edgeIds ∨ edit.newEdge? = some id := by
  cases change with
  | refused _ => exact Or.inl member
  | nodeAdded _ _ => exact Or.inl member
  | edgeRejected _ => exact Or.inl member
  | edgeAdded _ =>
      unfold edgeIds at member
      rw [List.map_append, List.map_singleton, List.mem_append, List.mem_singleton] at member
      exact member.imp_right (fun same => congrArg some same.symm)
  | nodeRemoved _ => exact Or.inl ((List.filter_sublist.map Edge.id).subset member)
  | edgeRemoved _ => exact Or.inl ((List.filter_sublist.map Edge.id).subset member)
  | nodeUpdated _ _ => exact Or.inl member
  | edgeSplit _ made _ =>
      rw [(splitEdge_edgeIds made).1] at member
      exact (Edge.mem_subdivide_ids member).imp_right (fun same => congrArg some same.symm)

/-! ### What an edit keeps -/

theorem Change.uniqueNodes (change : Change graph edit next) (unique : graph.UniqueNodes) :
    next.UniqueNodes := by
  cases change with
  | refused _ => exact unique
  | @nodeAdded node absent _ =>
      unfold UniqueNodes nodeIds
      rw [List.map_append, List.map_singleton, ← List.concat_eq_append]
      exact unique.concat (node?_eq_none_iff.mp absent)
  | edgeRejected _ => exact unique
  | edgeAdded _ => exact (congrArg List.Nodup (nodeIds_claim? graph _ _)).mpr unique
  | nodeRemoved _ => exact unique.sublist (List.filter_sublist.map Node.id)
  | edgeRemoved _ => exact unique
  | nodeUpdated _ _ => exact (congrArg List.Nodup (nodeIds_updateFirst _ _ _)).mpr unique
  | edgeSplit parts _ _ => exact parts.uniqueNodes unique

theorem Change.uniqueEdges (change : Change graph edit next) (unique : graph.UniqueEdges)
    (fresh : edit.NewEdgeIsFresh graph) : next.UniqueEdges := by
  cases change with
  | refused _ => exact unique
  | nodeAdded _ _ => exact unique
  | edgeRejected _ => exact unique
  | @edgeAdded _ id _ _ =>
      unfold UniqueEdges edgeIds
      rw [List.map_append, List.map_singleton, ← List.concat_eq_append]
      exact unique.concat (fresh id rfl)
  | nodeRemoved _ => exact unique.sublist (List.filter_sublist.map Edge.id)
  | edgeRemoved _ => exact unique.sublist (List.filter_sublist.map Edge.id)
  | nodeUpdated _ _ => exact unique
  | edgeSplit _ made _ =>
      obtain ⟨ids, absent⟩ := splitEdge_edgeIds made
      unfold UniqueEdges
      rw [ids]
      exact Edge.subdivide_ids_nodup unique absent

theorem Change.oneBegin (change : Change graph edit next) (one : graph.OneBegin) :
    next.OneBegin := by
  unfold OneBegin at one ⊢
  cases change with
  | refused _ => exact one
  | @nodeAdded node _ begins =>
      rw [List.map_append, List.count_append, List.map_singleton]
      by_cases isBegin : node.kind = .begin
      · have none := beginNode?_eq_none_iff.mp (begins isBegin)
        simp [none, isBegin]
      · simp [isBegin, one]
  | edgeRejected _ => exact one
  | edgeAdded _ => exact kinds_claim? graph _ _ ▸ one
  | nodeRemoved _ => exact Nat.le_trans ((List.filter_sublist.map Node.kind).count_le _) one
  | edgeRemoved _ => exact one
  | @nodeUpdated _ _ _ node data found set =>
      rw [map_updateFirst]
      · exact one
      · intro other same
        cases found.symm.trans same
        exact NodeData.kind_of_setField? set
  | edgeSplit parts _ _ =>
      rw [parts.nextNodes, List.map_append, List.count_append, List.map_singleton, parts.kind]
      simpa using one

theorem Change.endsPresent (change : Change graph edit next) (ends : graph.EndsPresent) :
    next.EndsPresent := by
  cases change with
  | refused _ => exact ends
  | nodeAdded _ _ =>
      intro edge member
      unfold nodeIds
      rw [List.map_append]
      exact (ends edge member).imp (List.mem_append_left _) (List.mem_append_left _)
  | edgeRejected _ => exact ends
  | @edgeAdded connection id line verdict =>
      have sameIds := nodeIds_claim? graph connection.target (graph.judge connection).claim
      intro edge member
      rcases List.mem_append.mp member with old | added
      · exact sameIds.symm ▸ ends edge old
      · rw [List.mem_singleton.mp added]
        obtain ⟨source, target, leaves, enters, _⟩ := accepts_iff.mp (accepts_of_verdict verdict)
        exact sameIds.symm ▸
          ⟨mem_nodeIds_iff.mpr ⟨source, leaves⟩, mem_nodeIds_iff.mpr ⟨target, enters⟩⟩
  | nodeRemoved found =>
      intro edge member
      obtain ⟨source, target⟩ := (Change.nodeRemoved found).keeps_ends member
      have old := ends edge (List.mem_filter.mp member).1
      exact ⟨source.mem_nodeIds old.1, target.mem_nodeIds old.2⟩
  | edgeRemoved _ =>
      intro edge member
      exact ends edge (List.mem_filter.mp member).1
  | nodeUpdated _ _ =>
      intro edge member
      rw [nodeIds_updateFirst]
      exact ends edge member
  | edgeSplit parts _ _ => exact parts.endsPresent ends

theorem Change.wellFormed (change : Change graph edit next) (formed : graph.WellFormed)
    (fresh : edit.NewEdgeIsFresh graph) : next.WellFormed where
  uniqueNodes := change.uniqueNodes formed.uniqueNodes
  uniqueEdges := change.uniqueEdges formed.uniqueEdges fresh
  oneBegin := change.oneBegin formed.oneBegin
  endsPresent := change.endsPresent formed.endsPresent

theorem Change.idsApart (change : Change graph edit next) (apart : graph.IdsApart)
    (fresh : edit.NewIdsApart graph) : next.IdsApart := by
  intro id node edge
  rcases change.mem_nodeIds node with oldNode | newNode
  · rcases change.mem_edgeIds edge with oldEdge | newEdge
    · exact apart id oldNode oldEdge
    · exact fresh.edge id newEdge oldNode
  · obtain ⟨given, isNew, named⟩ := newNode
    subst named
    rcases change.mem_edgeIds edge with oldEdge | newEdge
    · exact fresh.node given isNew oldEdge
    · exact fresh.each given isNew newEdge

/-- The ends of an edge that an edit leaves are later states of its old ends. -/
theorem Change.earlier_ends (change : Change graph edit next) (ends : graph.EndsPresent)
    {edge : Edge} (old : edge ∈ graph.edges) (kept : edge ∈ next.edges) {source target : Node}
    (leaves : next.node? edge.source = some source)
    (enters : next.node? edge.target = some target) :
    ∃ before after, graph.node? edge.source = some before ∧
      graph.node? edge.target = some after ∧ before.Grows source ∧ after.Grows target := by
  obtain ⟨keepsSource, keepsTarget⟩ := change.keeps_ends kept
  obtain ⟨before, left, sourceGrows⟩ := keepsSource.earlier (ends edge old).1 leaves
  obtain ⟨after, entered, targetGrows⟩ := keepsTarget.earlier (ends edge old).2 enters
  exact ⟨before, after, left, entered, sourceGrows, targetGrows⟩

/-! ### Runs from the empty graph -/

theorem uniqueNodes_run (edits : List Edit) : (empty.run edits).UniqueNodes :=
  run_preserves Change.uniqueNodes wellFormed_empty.uniqueNodes edits

theorem endsPresent_run (edits : List Edit) : (empty.run edits).EndsPresent :=
  run_preserves Change.endsPresent wellFormed_empty.endsPresent edits

/-- What every edit of a graph with all its ends keeps, a run from the empty graph has. -/
theorem holds_run {Holds : Graph → Prop}
    (step : ∀ {graph next : Graph} {edit : Edit}, Change graph edit next → graph.EndsPresent →
      Holds graph → Holds next)
    (start : Holds empty) (edits : List Edit) : Holds (empty.run edits) := by
  have both {graph next : Graph} {edit : Edit} (change : Change graph edit next)
      (held : graph.EndsPresent ∧ Holds graph) : next.EndsPresent ∧ Holds next :=
    ⟨change.endsPresent held.1, step change held.1 held.2⟩
  exact (run_preserves both ⟨wellFormed_empty.endsPresent, start⟩ edits).2

end Graph

end CrewCanvas
