/-
JSON form of edges and proposed connections.
-/

import CrewCanvas.Edge.Basic

namespace CrewCanvas

open Json

namespace Handle

def toJson (handle : Handle) : Json := .text handle.name

def decode : Decoder Handle :=
  Decode.variant (Handle.all.map (fun handle => (handle.name, handle)))

def optionToJson : Option Handle → Json
  | none => .null
  | some handle => handle.toJson

end Handle

namespace Connection

def toJson (connection : Connection) : Json :=
  .record
    [("source", .text connection.source),
      ("source_handle", Handle.optionToJson connection.sourceHandle),
      ("target", .text connection.target),
      ("target_handle", Handle.optionToJson connection.targetHandle)]

def decode : Decoder Connection := fun origin doc => do
  let (source, sourceHandle, target, targetHandle, _) ←
    (Shape.field (.required "source" Decode.text)
      (.field (.optional "source_handle" Handle.decode)
        (.field (.required "target" Decode.text)
          (.field (.optional "target_handle" Handle.decode) .none)))).decode
      "struct Connection" origin doc
  return { source, sourceHandle, target, targetHandle }

end Connection

namespace Edge

def toJson (edge : Edge) : Json :=
  .record
    [("id", .text edge.id), ("source", .text edge.source),
      ("source_handle", Handle.optionToJson edge.sourceHandle),
      ("target", .text edge.target),
      ("target_handle", Handle.optionToJson edge.targetHandle),
      ("is_execution_line", .bool edge.isExecutionLine)]

def decode : Decoder Edge := fun origin doc => do
  let (id, source, sourceHandle, target, targetHandle, isExecutionLine, _) ←
    (Shape.field (.required "id" Decode.text)
      (.field (.required "source" Decode.text)
        (.field (.optional "source_handle" Handle.decode)
          (.field (.required "target" Decode.text)
            (.field (.optional "target_handle" Handle.decode)
              (.field (.required "is_execution_line" Decode.bool) .none)))))).decode
      "struct Edge" origin doc
  return { id, source, sourceHandle, target, targetHandle, isExecutionLine }

end Edge

end CrewCanvas
