/-
Graphs of records.

A record is read as a graph exactly if each of its nodes and edges reads as one of the
graph, in the same order, and the graph is well formed.
-/

import CrewCanvas.Proofs.WellFormed
import CrewCanvas.Record.Basic
import Mathlib.Data.List.Forall2

namespace CrewCanvas

open List (Forall₂)

theorem exists_record_of_mem {α β : Type} {reads : α → β → Prop} {records : List α}
    {items : List β} (each : Forall₂ reads records items) {item : β} (member : item ∈ items) :
    ∃ record ∈ records, reads record item := by
  induction each with
  | nil => cases member
  | @cons record _ _ _ first _ ih =>
      rcases List.mem_cons.mp member with isFirst | later
      · subst isFirst
        exact ⟨record, List.mem_cons_self, first⟩
      · obtain ⟨found, inRest, read⟩ := ih later
        exact ⟨found, List.mem_cons_of_mem _ inRest, read⟩

namespace NodeRecord

theorem id_of_toNode {record : NodeRecord} {node : Node} (read : record.toNode = .ok node) :
    node.id = record.id ∧ node.position = record.position := by
  unfold toNode at read
  cases kind : NodeKind.ofName? record.kind with
  | none =>
      rw [kind] at read
      cases read
  | some nodeKind =>
      rw [kind] at read
      cases data : NodeData.ofJson nodeKind record.data with
      | error error => simp [data, Except.map] at read
      | ok value =>
          simp only [data, Except.map] at read
          cases read
          exact ⟨rfl, rfl⟩

end NodeRecord

namespace EdgeRecord

theorem toEdge_eq_ok_iff {graph : Graph} {record : EdgeRecord} {edge : Edge} :
    toEdge graph record = .ok edge ↔
      record.source ∈ graph.nodeIds ∧ record.target ∈ graph.nodeIds ∧
        ∃ sourceHandle targetHandle, handle record.sourceHandle = .ok sourceHandle ∧
          handle record.targetHandle = .ok targetHandle ∧
          edge =
            { id := record.id, source := record.source, sourceHandle
              target := record.target, targetHandle
              isExecutionLine := record.isExecutionLine } := by
  rw [Graph.mem_nodeIds_iff, Graph.mem_nodeIds_iff]
  unfold toEdge
  cases graph.node? record.source with
  | none => simp [bind, Except.bind]
  | some source =>
      cases graph.node? record.target with
      | none => simp [bind, Except.bind]
      | some target =>
          cases handle record.sourceHandle with
          | error error => simp [bind, Except.bind]
          | ok sourceHandle =>
              cases handle record.targetHandle with
              | error error => simp [bind, Except.bind]
              | ok targetHandle => simp [bind, Except.bind, pure, Except.pure, eq_comm]

theorem id_of_toEdge {graph : Graph} {record : EdgeRecord} {edge : Edge}
    (read : toEdge graph record = .ok edge) : edge.id = record.id := by
  obtain ⟨_, _, _, _, _, _, shape⟩ := toEdge_eq_ok_iff.mp read
  rw [shape]

theorem toEdges_cons_eq_ok_iff {graph : Graph} {seen : List EdgeId} {record : EdgeRecord}
    {rest : List EdgeRecord} {edges : List Edge} :
    toEdges graph seen (record :: rest) = .ok edges ↔
      record.id ∉ seen ∧ ∃ edge later, toEdge graph record = .ok edge ∧
        toEdges graph (record.id :: seen) rest = .ok later ∧ edges = edge :: later := by
  rw [toEdges]
  by_cases known : record.id ∈ seen
  · simp [known]
  · cases first : toEdge graph record with
    | error error => simp [known, bind, Except.bind]
    | ok edge =>
        cases others : toEdges graph (record.id :: seen) rest with
        | error error => simp [known, bind, Except.bind]
        | ok later => simp [known, bind, Except.bind, pure, Except.pure, eq_comm]

theorem toEdges_eq_ok_iff {graph : Graph} {seen : List EdgeId} {records : List EdgeRecord}
    {edges : List Edge} :
    toEdges graph seen records = .ok edges ↔
      Forall₂ (fun record edge => toEdge graph record = .ok edge) records edges ∧
        (edges.map Edge.id).Nodup ∧ ∀ id ∈ edges.map Edge.id, id ∉ seen := by
  induction records generalizing seen edges with
  | nil =>
      rw [toEdges, List.forall₂_nil_left_iff]
      constructor
      · intro same
        cases same
        simp
      · rintro ⟨same, _⟩
        rw [same]
  | cons record rest ih =>
      rw [toEdges_cons_eq_ok_iff]
      constructor
      · rintro ⟨fresh, edge, later, first, others, shape⟩
        subst shape
        obtain ⟨each, unique, unseen⟩ := ih.mp others
        have sameId := id_of_toEdge first
        refine ⟨Forall₂.cons first each, List.nodup_cons.mpr ⟨?_, unique⟩, ?_⟩
        · intro member
          exact unseen edge.id member (sameId ▸ List.mem_cons_self)
        · intro id member known
          rcases List.mem_cons.mp member with isFirst | later
          · exact fresh (sameId ▸ isFirst ▸ known)
          · exact unseen id later (List.mem_cons_of_mem _ known)
      · rintro ⟨each, unique, unseen⟩
        cases each with
        | @cons _ edge _ later first each =>
            have sameId := id_of_toEdge first
            rw [List.map_cons, List.nodup_cons] at unique
            have fresh : record.id ∉ seen := sameId ▸ unseen edge.id List.mem_cons_self
            refine ⟨fresh, edge, later, first, ih.mpr ⟨each, unique.2, ?_⟩, rfl⟩
            intro id member known
            rcases List.mem_cons.mp known with isFirst | old
            · exact unique.1 (sameId.symm ▸ isFirst ▸ member)
            · exact unseen id (List.mem_cons_of_mem _ member) old

end EdgeRecord

namespace GraphRecord

theorem addNodes_cons_eq_ok_iff {graph next : Graph} {record : NodeRecord}
    {rest : List NodeRecord} :
    addNodes graph (record :: rest) = .ok next ↔
      ∃ node grown, record.toNode = .ok node ∧ graph.addNode node = .ok grown ∧
        addNodes grown rest = .ok next := by
  rw [addNodes]
  cases first : record.toNode with
  | error error => simp [bind, Except.bind]
  | ok node => cases added : graph.addNode node <;> simp [added, bind, Except.bind]

/-- A node can go behind those of a graph if the longer graph has unique ids and no second
begin node. -/
theorem addNode_of_longer {graph next : Graph} {node : Node} {nodes : List Node}
    (shape : next = { graph with nodes := graph.nodes ++ node :: nodes })
    (unique : next.UniqueNodes) (one : next.OneBegin) :
    graph.addNode node = .ok { graph with nodes := graph.nodes ++ [node] } := by
  subst shape
  rw [Graph.addNode_eq_ok_iff, Graph.node?_eq_none_iff, Graph.beginNode?_eq_none_iff]
  refine ⟨?_, ?_, rfl⟩
  · intro member
    simp only [Graph.UniqueNodes, Graph.nodeIds, List.map_append, List.map_cons,
      List.nodup_append] at unique
    exact unique.2.2 _ member _ List.mem_cons_self rfl
  · intro begins
    simp only [Graph.OneBegin, List.map_append, List.map_cons, List.count_append, begins,
      List.count_cons_self] at one
    omega

/-- The nodes of records go behind those of the graph, if the ids stay unique and no
second node begins. -/
theorem addNodes_eq_ok_iff {graph next : Graph} {records : List NodeRecord}
    (unique : graph.UniqueNodes) (one : graph.OneBegin) :
    addNodes graph records = .ok next ↔
      ∃ nodes, Forall₂ (fun record node => record.toNode = .ok node) records nodes ∧
        next = { graph with nodes := graph.nodes ++ nodes } ∧
          next.UniqueNodes ∧ next.OneBegin := by
  induction records generalizing graph with
  | nil =>
      rw [addNodes]
      constructor
      · intro same
        cases same
        exact ⟨[], Forall₂.nil, by simp, unique, one⟩
      · rintro ⟨nodes, each, shape, _⟩
        rw [List.forall₂_nil_left_iff] at each
        subst each
        simp [shape]
  | cons record rest ih =>
      rw [addNodes_cons_eq_ok_iff]
      constructor
      · rintro ⟨node, larger, first, grown, others⟩
        have change : Graph.Change graph (.addNode node) larger := Graph.change_of_result grown
        obtain ⟨nodes, each, shape, formed⟩ :=
          (ih (change.uniqueNodes unique) (change.oneBegin one)).mp others
        obtain ⟨_, _, larger⟩ := Graph.addNode_eq_ok_iff.mp grown
        subst larger
        refine ⟨node :: nodes, Forall₂.cons first each, ?_, formed⟩
        rw [shape, List.append_assoc, List.singleton_append]
      · rintro ⟨nodes, each, shape, uniqueNext, oneNext⟩
        cases each with
        | @cons _ node _ nodes first each =>
            have grown := addNode_of_longer shape uniqueNext oneNext
            have change : Graph.Change graph (.addNode node) _ := Graph.change_of_result grown
            refine ⟨node, _, first, grown,
              (ih (change.uniqueNodes unique) (change.oneBegin one)).mpr
                ⟨nodes, each, ?_, uniqueNext, oneNext⟩⟩
            rw [shape, List.append_assoc, List.singleton_append]

/-- Edges are read against the nodes alone. -/
theorem toEdges_of_nodes (nodes : List Node) (edges others : List Edge) :
    EdgeRecord.toEdges { nodes, edges } = EdgeRecord.toEdges { nodes, edges := others } := by
  have each : EdgeRecord.toEdge { nodes, edges } =
      EdgeRecord.toEdge { nodes, edges := others } := rfl
  funext seen records
  induction records generalizing seen with
  | nil => rfl
  | cons record rest ih => simp only [EdgeRecord.toEdges, each, ih]

theorem toGraph_eq_ok_iff {record : GraphRecord} {graph : Graph} :
    record.toGraph = .ok graph ↔
      Forall₂ (fun record node => record.toNode = .ok node) record.nodes graph.nodes ∧
        Forall₂ (fun record edge => EdgeRecord.toEdge graph record = .ok edge)
          record.edges graph.edges ∧ graph.WellFormed := by
  have addNodes (next : Graph) : GraphRecord.addNodes Graph.empty record.nodes = .ok next ↔ _ :=
    addNodes_eq_ok_iff Graph.wellFormed_empty.uniqueNodes Graph.wellFormed_empty.oneBegin
  unfold toGraph
  constructor
  · intro read
    cases added : GraphRecord.addNodes Graph.empty record.nodes with
    | error error => simp [added, bind, Except.bind] at read
    | ok grown =>
        cases drawn : EdgeRecord.toEdges grown [] record.edges with
        | error error => simp [added, drawn, bind, Except.bind] at read
        | ok edges =>
            simp only [added, drawn, bind, Except.bind, pure, Except.pure] at read
            cases read
            obtain ⟨nodes, each, shape, unique, one⟩ := (addNodes grown).mp added
            rw [toEdges_of_nodes grown.nodes grown.edges edges] at drawn
            obtain ⟨eachEdge, uniqueEdges, _⟩ := EdgeRecord.toEdges_eq_ok_iff.mp drawn
            refine ⟨?_, eachEdge, unique, uniqueEdges, one, ?_⟩
            · subst shape
              exact each
            · intro edge member
              obtain ⟨_, _, read⟩ := exists_record_of_mem eachEdge member
              obtain ⟨source, target, _, _, _, _, same⟩ := EdgeRecord.toEdge_eq_ok_iff.mp read
              subst same
              exact ⟨source, target⟩
  · rintro ⟨eachNode, eachEdge, formed⟩
    have added : GraphRecord.addNodes Graph.empty record.nodes =
        .ok { graph with edges := [] } :=
      (addNodes _).mpr ⟨graph.nodes, eachNode, rfl, formed.uniqueNodes, formed.oneBegin⟩
    have drawn : EdgeRecord.toEdges { graph with edges := [] } [] record.edges =
        .ok graph.edges := by
      rw [toEdges_of_nodes graph.nodes [] graph.edges]
      exact EdgeRecord.toEdges_eq_ok_iff.mpr ⟨eachEdge, formed.uniqueEdges, by simp⟩
    simp only [added, drawn, bind, Except.bind, pure, Except.pure]

end GraphRecord

end CrewCanvas
