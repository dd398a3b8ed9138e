/-
Graphs read back from their records.

The names of kinds and handles and the free data of a node lose nothing, so the record of a
well-formed graph reads as that graph.
-/

import CrewCanvas.Proofs.RecordGraph
import CrewCanvas.Proofs.RecordShape

namespace CrewCanvas

open Json
open List (Forall₂)

/-! ### Names -/

theorem NodeKind.ofName?_name (kind : NodeKind) : NodeKind.ofName? kind.name = some kind := by
  cases kind <;> decide

theorem Handle.ofName?_name (handle : Handle) : Handle.ofName? handle.name = some handle := by
  cases handle <;> decide

theorem LineKind.decode_name (line : LineKind) (origin : Origin) :
    LineKind.decode origin (.text (some line.name)) = .ok line := by
  cases line <;> rfl

theorem EdgeRecord.handle_map_name (handle : Option Handle) :
    EdgeRecord.handle (handle.map Handle.name) = .ok handle := by
  cases handle with
  | none => rfl
  | some handle => simp only [Option.map_some, EdgeRecord.handle, Handle.ofName?_name]

/-! ### Data -/

attribute [simp] Field.textOrEmpty

@[simp] theorem Json.Decode.text_text (origin : Origin) (value : String) :
    Decode.text origin (.text (some value)) = .ok value := rfl

namespace NodeData

def textFields : NodeData → List (String × String)
  | begin => []
  | agent data =>
      [("backstory", data.backstory), ("goal", data.goal), ("name", data.name),
        ("role", data.role), ("tools", data.tools)]
  | task data =>
      [("description", data.description), ("expected_output", data.expectedOutput),
        ("name", data.name)]
  | reroute none => []
  | reroute (some line) => [("claimedType", line.name)]

theorem toJson_eq_record (data : NodeData) :
    data.toJson = .record (data.textFields.map (fun field => (field.1, .text field.2))) := by
  cases data with
  | reroute claimed => cases claimed <;> rfl
  | _ => rfl

def fieldDocs (data : NodeData) : List (String × Doc) :=
  data.textFields.map (fun field => (field.1, .text (some field.2)))

theorem ofValue_toJson (data : NodeData) : Doc.ofValue data.toJson = Doc.object data.fieldDocs := by
  rw [toJson_eq_record, Doc.ofValue_record, List.map_map]
  rfl

theorem fieldDocs_keys_nodup (data : NodeData) : (data.fieldDocs.map Prod.fst).Nodup := by
  cases data with
  | reroute claimed => cases claimed <;> simp [fieldDocs, textFields]
  | _ => simp [fieldDocs, textFields]

/-- The data that is written is the data that is read, in a text or in memory. -/
theorem decode_toJson (data : NodeData) {origin inner : Origin}
    (entered : origin.enter = .ok inner) :
    decode data.kind origin (Doc.ofValue data.toJson) = .ok data := by
  rw [ofValue_toJson]
  have distinct := data.fieldDocs_keys_nodup
  cases data with
  | begin =>
      have read : decodeBeginData origin (Doc.object begin.fieldDocs) = .ok () :=
        Shape.decode_object _ entered (by simp) distinct (by simp [fieldDocs, textFields]) trivial
      simp only [decode, kind, read, Except.map]
  | agent data =>
      have read : AgentData.decode origin (Doc.object (agent data).fieldDocs) = .ok data := by
        apply Shape.decode_object_bind entered
          (data.name, data.role, data.goal, data.backstory, data.tools, ())
        · simp [fieldDocs, textFields, List.lookup_cons]
        · simp
        · exact distinct
        · simp [fieldDocs, textFields]
      simp only [decode, kind, read, Except.map]
  | task data =>
      have read : TaskData.decode origin (Doc.object (task data).fieldDocs) = .ok data := by
        apply Shape.decode_object_bind entered
          (data.name, data.description, data.expectedOutput, ())
        · simp [fieldDocs, textFields, List.lookup_cons]
        · simp
        · exact distinct
        · simp [fieldDocs, textFields]
      simp only [decode, kind, read, Except.map]
  | reroute claimed =>
      have read : decodeRerouteData origin (Doc.object (reroute claimed).fieldDocs) =
          .ok claimed := by
        apply Shape.decode_object_bind entered (claimed, ())
        · cases claimed <;>
            simp [fieldDocs, textFields, Decode.optional, LineKind.decode_name, Except.map]
        · simp
        · exact distinct
        · cases claimed <;> simp [fieldDocs, textFields]
      simp only [decode, kind, read, Except.map]

theorem ofJson_toJson (data : NodeData) : ofJson data.kind data.toJson = .ok data := by
  have read : decodeValue (decode data.kind) data.toJson = .ok data :=
    decode_toJson data rfl
  rw [toJson_eq_record] at read ⊢
  simp only [ofJson, read, Except.mapError]

end NodeData

/-! ### Nodes, edges and graphs -/

theorem NodeRecord.toNode_ofNode (node : Node) : (NodeRecord.ofNode node).toNode = .ok node := by
  have read : NodeData.ofJson node.kind node.data.toJson = .ok node.data :=
    NodeData.ofJson_toJson node.data
  simp only [NodeRecord.ofNode, NodeRecord.toNode, NodeKind.ofName?_name, read, Except.map]

theorem EdgeRecord.toEdge_ofEdge {graph : Graph} {edge : Edge}
    (source : edge.source ∈ graph.nodeIds) (target : edge.target ∈ graph.nodeIds) :
    EdgeRecord.toEdge graph (EdgeRecord.ofEdge edge) = .ok edge :=
  EdgeRecord.toEdge_eq_ok_iff.mpr
    ⟨source, target, edge.sourceHandle, edge.targetHandle,
      EdgeRecord.handle_map_name edge.sourceHandle, EdgeRecord.handle_map_name edge.targetHandle,
      rfl⟩

theorem GraphRecord.toGraph_ofGraph {graph : Graph} (formed : graph.WellFormed) :
    (GraphRecord.ofGraph graph).toGraph = .ok graph := by
  rw [GraphRecord.toGraph_eq_ok_iff]
  refine ⟨?_, ?_, formed⟩
  · apply List.forall₂_map_left_iff.mpr
    exact List.forall₂_same.mpr (fun node _ => NodeRecord.toNode_ofNode node)
  · apply List.forall₂_map_left_iff.mpr
    apply List.forall₂_same.mpr
    intro edge member
    have ends := formed.endsPresent edge member
    exact EdgeRecord.toEdge_ofEdge ends.1 ends.2

theorem EdgeRecord.eq_of_toEdge_ofEdge {graph : Graph} {edge read : Edge}
    (reads : EdgeRecord.toEdge graph (EdgeRecord.ofEdge edge) = .ok read) : edge = read := by
  obtain ⟨_, _, sourceHandle, targetHandle, source, target, shape⟩ :=
    EdgeRecord.toEdge_eq_ok_iff.mp reads
  have sameSource := Except.ok.inj (source.symm.trans (handle_map_name edge.sourceHandle))
  have sameTarget := Except.ok.inj (target.symm.trans (handle_map_name edge.targetHandle))
  rw [shape, sameSource, sameTarget]
  rfl

/-- The record of a graph is read as that graph, if it is read. -/
theorem GraphRecord.eq_of_toGraph_ofGraph {graph read : Graph}
    (reads : (GraphRecord.ofGraph graph).toGraph = .ok read) : read = graph := by
  obtain ⟨eachNode, eachEdge, _⟩ := GraphRecord.toGraph_eq_ok_iff.mp reads
  have nodes : List.Forall₂ Eq graph.nodes read.nodes := by
    refine (List.forall₂_map_left_iff.mp eachNode).imp ?_
    intro node other same
    exact Except.ok.inj ((NodeRecord.toNode_ofNode node).symm.trans same)
  have edges : List.Forall₂ Eq graph.edges read.edges :=
    (List.forall₂_map_left_iff.mp eachEdge).imp (fun _ _ => EdgeRecord.eq_of_toEdge_ofEdge)
  rw [List.forall₂_eq_eq_eq] at nodes edges
  cases graph
  cases read
  cases nodes
  cases edges
  rfl

/-! ### Coordinates that are numbers -/

def Position.IsNumber (position : Position) : Prop :=
  position.x.isNaN = false ∧ position.y.isNaN = false

instance (position : Position) : Decidable position.IsNumber :=
  inferInstanceAs (Decidable (_ ∧ _))

theorem Position.numEq_self {position : Position} (number : position.IsNumber) :
    position.numEq position = true := by
  unfold Position.numEq
  rw [(Binary64.numEq_self_iff position.x).mpr number.1,
    (Binary64.numEq_self_iff position.y).mpr number.2]
  rfl

def Graph.HasNumbers (graph : Graph) : Prop :=
  ∀ position ∈ graph.nodes.map Node.position, position.IsNumber

instance (graph : Graph) : Decidable graph.HasNumbers :=
  inferInstanceAs (Decidable (∀ position ∈ graph.nodes.map Node.position, _))

def GraphRecord.HasNumbers (record : GraphRecord) : Prop :=
  ∀ position ∈ record.nodes.map NodeRecord.position, position.IsNumber

instance (record : GraphRecord) : Decidable record.HasNumbers :=
  inferInstanceAs (Decidable (∀ position ∈ record.nodes.map NodeRecord.position, _))

/-- A record and the graph that it is read as have the same coordinates. -/
theorem GraphRecord.hasNumbers_of_toGraph {record : GraphRecord} {graph : Graph}
    (read : record.toGraph = .ok graph) (numbers : record.HasNumbers) : graph.HasNumbers := by
  have positions : record.nodes.map NodeRecord.position = graph.nodes.map Node.position :=
    map_eq_map_of_forall₂ (GraphRecord.toGraph_eq_ok_iff.mp read).1
      (fun _ _ node => (NodeRecord.id_of_toNode node).2.symm)
  unfold Graph.HasNumbers
  rw [← positions]
  exact numbers

theorem Graph.numEq_self {graph : Graph} (numbers : graph.HasNumbers) :
    graph.numEq graph = true := by
  have nodes : (graph.nodes.zip graph.nodes).all (fun pair => pair.1.numEq pair.2) = true := by
    rw [List.all_eq_true, List.zip_eq_zipWith, List.zipWith_self]
    intro pair member
    obtain ⟨node, present, same⟩ := List.mem_map.mp member
    subst same
    have number := numbers node.position (List.mem_map_of_mem present)
    simp [Node.numEq, Position.numEq_self number]
  simp [Graph.numEq, nodes]

end CrewCanvas
