/-
JSON form of graph records.

The fields of a record are written in the order of their declaration; the free
data of a node keeps its keys sorted.  Absent handles are left out.
-/

import CrewCanvas.Record.Basic
import CrewCanvas.Edge.Json

namespace CrewCanvas

open Json

namespace NodeRecord

def toJson (record : NodeRecord) : Json :=
  .record
    [("id", .text record.id), ("type", .text record.kind),
      ("position", record.position.toJson), ("data", record.data)]

def decode : Decoder NodeRecord := fun origin doc => do
  let (id, kind, position, data, _) ←
    (Shape.field (.required "id" Decode.text)
      (.field (.required "type" Decode.text)
        (.field (.defaulted "position" Position.decode Position.origin)
          (.field (.defaulted "data" Decode.any .null) .none)))).decode
      "struct NodeModel" origin doc
  return { id, kind, position, data }

end NodeRecord

namespace EdgeRecord

def textIfAny (name : String) : Option String → List (String × Json)
  | none => []
  | some value => [(name, .text value)]

def toJson (record : EdgeRecord) : Json :=
  .record
    ([("id", .text record.id), ("source", .text record.source)] ++
      textIfAny "sourceHandle" record.sourceHandle ++
      [("target", .text record.target)] ++
      textIfAny "targetHandle" record.targetHandle ++
      [("isExecutionLine", .bool record.isExecutionLine)])

def textOrNone (name : String) : Json.Field (Option String) :=
  .defaulted name (Decode.optional Decode.text) none

def decode : Decoder EdgeRecord := fun origin doc => do
  let (id, source, sourceHandle, target, targetHandle, isExecutionLine, _) ←
    (Shape.field (.required "id" Decode.text)
      (.field (.required "source" Decode.text)
        (.field (textOrNone "sourceHandle")
          (.field (.required "target" Decode.text)
            (.field (textOrNone "targetHandle")
              (.field (.defaulted "isExecutionLine" Decode.bool false) .none)))))).decode
      "struct EdgeModel" origin doc
  return { id, source, sourceHandle, target, targetHandle, isExecutionLine }

end EdgeRecord

def Json.Field.listOrEmpty {α : Type} (name : String) (decode : Decoder α) : Field (List α) :=
  .defaulted name (Decode.list decode) []

namespace GraphRecord

def toJson (record : GraphRecord) : Json :=
  .record
    [("nodes", .list (record.nodes.map NodeRecord.toJson)),
      ("edges", .list (record.edges.map EdgeRecord.toJson))]

def decode : Decoder GraphRecord := fun origin doc => do
  let (nodes, edges, _) ←
    (Shape.field (.listOrEmpty "nodes" NodeRecord.decode)
      (.field (.listOrEmpty "edges" EdgeRecord.decode) .none)).decode
      "struct GraphModel" origin doc
  return { nodes, edges }

def toText (record : GraphRecord) : String := indentedText record.toJson

def ofText (text : String) : Except Fault GraphRecord := decodeText decode text

end GraphRecord

namespace SavedGraph

def toJson (saved : SavedGraph) : Json :=
  .record
    [("name", .text saved.name), ("title", .text saved.title),
      ("nodes", .list (saved.nodes.map NodeRecord.toJson)),
      ("edges", .list (saved.edges.map EdgeRecord.toJson)),
      ("create_time", .ofInt saved.createTime), ("update_time", .ofInt saved.updateTime)]

def decode : Decoder SavedGraph := fun origin doc => do
  let (name, title, nodes, edges, createTime, updateTime, _) ←
    (Shape.field (.required "name" Decode.text)
      (.field (.textOrEmpty "title")
        (.field (.listOrEmpty "nodes" NodeRecord.decode)
          (.field (.listOrEmpty "edges" EdgeRecord.decode)
            (.field (.defaulted "create_time" Decode.int 0)
              (.field (.defaulted "update_time" Decode.int 0) .none)))))).decode
      "struct SavedGraph" origin doc
  return { name, title, nodes, edges, createTime, updateTime }

end SavedGraph

end CrewCanvas
