/-
Valid records.

Whether a record is one of a graph can be told from the record alone: its kinds, data, ids,
ends and handles are all checked, and nothing else is.  The graph that it is read as has its
nodes and edges in their order, and the record of that graph is its normal form.
-/

import CrewCanvas.Proofs.WrittenData
import Mathlib.Data.List.Count

namespace CrewCanvas

open List (Forall₂)

/-! ### Names -/

theorem find?_name_eq_some_iff {α : Type} {all : List α} {name : α → String}
    (each : ∀ item, all.find? (fun other => name other = name item) = some item)
    {text : String} {item : α} :
    all.find? (fun other => name other = text) = some item ↔ text = name item := by
  constructor
  · intro found
    have named := List.find?_some found
    rw [decide_eq_true_eq] at named
    exact named.symm
  · rintro rfl
    exact each item

theorem NodeKind.ofName?_eq_some_iff {name : String} {kind : NodeKind} :
    ofName? name = some kind ↔ name = kind.name :=
  find?_name_eq_some_iff ofName?_name

theorem Handle.ofName?_eq_some_iff {name : String} {handle : Handle} :
    ofName? name = some handle ↔ name = handle.name :=
  find?_name_eq_some_iff ofName?_name

/-! ### Nodes -/

structure NodeRecord.Describes (record : NodeRecord) (node : Node) : Prop where
  id : record.id = node.id
  position : record.position = node.position
  kind : record.kind = node.kind.name
  data : node.data.WrittenIn record.data

theorem NodeRecord.toNode_eq_ok_iff {record : NodeRecord} {node : Node} :
    record.toNode = .ok node ↔ record.Describes node := by
  unfold toNode
  constructor
  · intro read
    cases named : NodeKind.ofName? record.kind with
    | none =>
        rw [named] at read
        cases read
    | some kind =>
        rw [named, map_eq_ok_iff] at read
        obtain ⟨data, decoded, rfl⟩ := read
        obtain ⟨ofKind, written⟩ := NodeData.ofJson_eq_ok_iff.mp decoded
        rw [← ofKind, NodeKind.ofName?_eq_some_iff] at named
        exact ⟨rfl, rfl, named, written⟩
  · rintro ⟨id, position, kind, written⟩
    rw [NodeKind.ofName?_eq_some_iff.mpr kind]
    have decoded := NodeData.ofJson_eq_ok_iff.mpr ⟨rfl, written⟩
    simp only [Node.kind, decoded, Except.map, id, position]

/-! ### Edges -/

namespace EdgeRecord

theorem handle_eq_ok_iff {name : Option String} {found : Option Handle} :
    handle name = .ok found ↔ name = found.map Handle.name := by
  constructor
  · intro read
    cases name with
    | none =>
        cases read
        rfl
    | some name =>
        rw [handle] at read
        cases named : Handle.ofName? name with
        | none => simp [named] at read
        | some handle =>
            simp only [named] at read
            cases read
            rw [Handle.ofName?_eq_some_iff.mp named]
            rfl
  · rintro rfl
    exact handle_map_name found

theorem toEdge_eq_ok_iff_ofEdge {graph : Graph} {record : EdgeRecord} {edge : Edge} :
    toEdge graph record = .ok edge ↔
      record = ofEdge edge ∧ edge.source ∈ graph.nodeIds ∧ edge.target ∈ graph.nodeIds := by
  simp only [toEdge_eq_ok_iff, handle_eq_ok_iff]
  constructor
  · rintro ⟨source, target, sourceHandle, targetHandle, fromName, toName, rfl⟩
    refine ⟨?_, source, target⟩
    cases record
    cases fromName
    cases toName
    rfl
  · rintro ⟨rfl, source, target⟩
    exact ⟨source, target, edge.sourceHandle, edge.targetHandle, rfl, rfl, rfl⟩

def HandlesNamed (record : EdgeRecord) : Prop :=
  ∀ name, record.sourceHandle = some name ∨ record.targetHandle = some name →
    ∃ handle : Handle, name = handle.name

theorem handlesNamed_ofEdge (edge : Edge) : (ofEdge edge).HandlesNamed := by
  rintro name (ofSource | ofTarget)
  · obtain ⟨handle, _, rfl⟩ := Option.map_eq_some_iff.mp ofSource
    exact ⟨handle, rfl⟩
  · obtain ⟨handle, _, rfl⟩ := Option.map_eq_some_iff.mp ofTarget
    exact ⟨handle, rfl⟩

theorem exists_handle {name : Option String}
    (named : ∀ text, name = some text → ∃ handle : Handle, text = handle.name) :
    ∃ handle : Option Handle, name = handle.map Handle.name := by
  cases name with
  | none => exact ⟨none, rfl⟩
  | some text =>
      obtain ⟨handle, rfl⟩ := named text rfl
      exact ⟨some handle, rfl⟩

theorem HandlesNamed.exists_edge {record : EdgeRecord} (named : record.HandlesNamed) :
    ∃ edge, record = ofEdge edge := by
  obtain ⟨sourceHandle, ofSource⟩ := exists_handle (fun name same => named name (Or.inl same))
  obtain ⟨targetHandle, ofTarget⟩ := exists_handle (fun name same => named name (Or.inr same))
  refine ⟨⟨record.id, record.source, sourceHandle, record.target, targetHandle,
    record.isExecutionLine⟩, ?_⟩
  cases record
  cases ofSource
  cases ofTarget
  rfl

end EdgeRecord

/-! ### Graphs -/

namespace GraphRecord

structure Describes (record : GraphRecord) (graph : Graph) : Prop where
  nodes : Forall₂ NodeRecord.Describes record.nodes graph.nodes
  edges : record.edges = graph.edges.map EdgeRecord.ofEdge

structure Valid (record : GraphRecord) : Prop where
  nodes : ∀ node ∈ record.nodes,
    ∃ data : NodeData, node.kind = data.kind.name ∧ data.WrittenIn node.data
  nodeIds : (record.nodes.map NodeRecord.id).Nodup
  oneBegin : (record.nodes.map NodeRecord.kind).count NodeKind.begin.name ≤ 1
  edgeIds : (record.edges.map EdgeRecord.id).Nodup
  ends : ∀ edge ∈ record.edges,
    edge.source ∈ record.nodes.map NodeRecord.id ∧ edge.target ∈ record.nodes.map NodeRecord.id
  handles : ∀ edge ∈ record.edges, edge.HandlesNamed

theorem toGraph_eq_ok_iff_describes {record : GraphRecord} {graph : Graph} :
    record.toGraph = .ok graph ↔ record.Describes graph ∧ graph.WellFormed := by
  simp only [toGraph_eq_ok_iff, NodeRecord.toNode_eq_ok_iff, EdgeRecord.toEdge_eq_ok_iff_ofEdge]
  constructor
  · rintro ⟨nodes, edges, formed⟩
    refine ⟨⟨nodes, ?_⟩, formed⟩
    rw [← List.map_id record.edges]
    exact map_eq_map_of_forall₂ edges (fun _ _ read => read.1)
  · rintro ⟨describes, formed⟩
    refine ⟨describes.nodes, ?_, formed⟩
    rw [describes.edges, List.forall₂_map_left_iff, List.forall₂_same]
    intro edge member
    exact ⟨rfl, formed.endsPresent edge member⟩

section Describes

variable {record : GraphRecord} {graph : Graph}

theorem Describes.nodeIds (describes : record.Describes graph) :
    record.nodes.map NodeRecord.id = graph.nodeIds :=
  map_eq_map_of_forall₂ describes.nodes (fun _ _ node => node.id)

theorem Describes.edgeIds (describes : record.Describes graph) :
    record.edges.map EdgeRecord.id = graph.edgeIds := by
  rw [describes.edges, List.map_map]
  rfl

theorem Describes.beginCount (describes : record.Describes graph) :
    (record.nodes.map NodeRecord.kind).count NodeKind.begin.name =
      (graph.nodes.map Node.kind).count .begin := by
  have kinds : record.nodes.map NodeRecord.kind =
      (graph.nodes.map Node.kind).map NodeKind.name := by
    rw [List.map_map]
    exact map_eq_map_of_forall₂ describes.nodes (fun _ _ node => node.kind)
  have injective : Function.Injective NodeKind.name := by
    intro kind other same
    exact Option.some.inj (NodeKind.ofName?_name kind ▸ same ▸ NodeKind.ofName?_name other)
  rw [kinds, List.count_map_of_injective _ _ injective]

/-- A record passes the checks exactly if the graph that it describes is well formed. -/
theorem Describes.valid_iff (describes : record.Describes graph) :
    record.Valid ↔ graph.WellFormed := by
  have uniqueNodes : (record.nodes.map NodeRecord.id).Nodup ↔ graph.UniqueNodes := by
    rw [describes.nodeIds, Graph.UniqueNodes]
  have uniqueEdges : (record.edges.map EdgeRecord.id).Nodup ↔ graph.UniqueEdges := by
    rw [describes.edgeIds, Graph.UniqueEdges]
  have oneBegin : (record.nodes.map NodeRecord.kind).count NodeKind.begin.name ≤ 1 ↔
      graph.OneBegin := by
    rw [describes.beginCount, Graph.OneBegin]
  constructor
  · intro valid
    refine ⟨uniqueNodes.mp valid.nodeIds, uniqueEdges.mp valid.edgeIds,
      oneBegin.mp valid.oneBegin, ?_⟩
    intro edge member
    rw [← describes.nodeIds]
    exact valid.ends (EdgeRecord.ofEdge edge) (describes.edges ▸ List.mem_map_of_mem member)
  · intro formed
    refine
      { nodes := ?nodes
        nodeIds := uniqueNodes.mpr formed.uniqueNodes
        oneBegin := oneBegin.mpr formed.oneBegin
        edgeIds := uniqueEdges.mpr formed.uniqueEdges
        ends := ?ends
        handles := ?handles }
    case nodes =>
      intro node member
      obtain ⟨read, _, described⟩ := exists_record_of_mem describes.nodes.flip member
      exact ⟨read.data, described.kind, described.data⟩
    case ends =>
      rw [describes.edges, describes.nodeIds]
      intro edge member
      obtain ⟨read, present, rfl⟩ := List.mem_map.mp member
      exact formed.endsPresent read present
    case handles =>
      rw [describes.edges]
      intro edge member
      obtain ⟨read, _, rfl⟩ := List.mem_map.mp member
      exact EdgeRecord.handlesNamed_ofEdge read

theorem Valid.exists_graph (valid : record.Valid) : ∃ graph, record.Describes graph := by
  have eachNode : ∀ node ∈ record.nodes, ∃ read, node.Describes read := by
    intro node member
    obtain ⟨data, kind, written⟩ := valid.nodes node member
    exact ⟨⟨node.id, node.position, data⟩, rfl, rfl, kind, written⟩
  obtain ⟨nodes, readNodes⟩ := exists_forall₂ eachNode
  obtain ⟨edges, readEdges⟩ :=
    exists_forall₂ (fun edge member => (valid.handles edge member).exists_edge)
  refine ⟨{ nodes, edges }, readNodes, ?_⟩
  rw [← List.map_id record.edges]
  exact map_eq_map_of_forall₂ readEdges (fun _ _ same => same)

theorem exists_toGraph_iff : (∃ graph, record.toGraph = .ok graph) ↔ record.Valid := by
  constructor
  · rintro ⟨graph, read⟩
    obtain ⟨describes, formed⟩ := toGraph_eq_ok_iff_describes.mp read
    exact describes.valid_iff.mpr formed
  · intro valid
    obtain ⟨graph, describes⟩ := valid.exists_graph
    exact ⟨graph, toGraph_eq_ok_iff_describes.mpr ⟨describes, describes.valid_iff.mp valid⟩⟩

end Describes

/-- How a record is read.  The record of the graph that it is read as is its normal form:
it is read as the same graph, and reading it changes nothing more. -/
structure ReadsAsDescribed (record : GraphRecord) : Prop where
  accepted : (∃ graph, record.toGraph = .ok graph) ↔ record.Valid
  described : ∀ graph, record.toGraph = .ok graph → record.Describes graph
  normal : ∀ graph, record.toGraph = .ok graph →
    ∃ again, (ofGraph graph).toGraph = .ok again ∧ ofGraph again = ofGraph graph ∧
      (record.HasNumbers → again.numEq graph = true)

theorem readsAsDescribed (record : GraphRecord) : record.ReadsAsDescribed where
  accepted := exists_toGraph_iff
  described := by
    intro graph read
    exact (toGraph_eq_ok_iff_describes.mp read).1
  normal := by
    intro graph read
    have formed := (toGraph_eq_ok_iff_describes.mp read).2
    refine ⟨graph, toGraph_ofGraph formed, rfl, ?_⟩
    intro numbers
    exact Graph.numEq_self (hasNumbers_of_toGraph read numbers)

def canvasRecord : GraphRecord :=
  { nodes :=
      [{ id := "b", kind := "begin" },
        { id := "a", kind := "agent", data := .list [.text "Ann", .text "Writer"] },
        { id := "r", kind := "reroute",
          data := .record [("claimedType", .record [("agent", .null)])] },
        { id := "t", kind := "task",
          data := .record [("color", .text "red"), ("name", .text "Draft")] }]
    edges :=
      [{ id := "e", source := "a", sourceHandle := some "agent-out", target := "r" },
        { id := "f", source := "r", target := "t", targetHandle := some "agent" }] }

def canvasGraph : Graph :=
  { nodes :=
      [{ id := "b", data := .begin },
        { id := "a", data := .agent { name := "Ann", role := "Writer" } },
        { id := "r", data := .reroute (some .agent) },
        { id := "t", data := .task { name := "Draft" } }]
    edges :=
      [⟨"e", "a", some .agentOut, "r", none, false⟩, ⟨"f", "r", none, "t", some .agent, false⟩] }

theorem canvasRecord_readsAsDescribed :
    canvasRecord.toGraph = .ok canvasGraph ∧ canvasRecord.Valid ∧
      canvasRecord.Describes canvasGraph ∧
        ∃ again, (ofGraph canvasGraph).toGraph = .ok again ∧
          ofGraph again = ofGraph canvasGraph ∧ again.numEq canvasGraph = true := by
  have reads := readsAsDescribed canvasRecord
  have read : canvasRecord.toGraph = .ok canvasGraph := rfl
  have numbers : canvasRecord.HasNumbers := by decide
  obtain ⟨again, reread, same, equal⟩ := reads.normal canvasGraph read
  exact ⟨read, reads.accepted.mp ⟨canvasGraph, read⟩, reads.described canvasGraph read,
    again, reread, same, equal numbers⟩

end GraphRecord

end CrewCanvas
