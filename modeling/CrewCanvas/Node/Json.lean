/-
JSON form of the parts of a node.

A data record is read from saved data of its kind: unknown fields are labels and
styles of the canvas and are skipped, and null stands for an empty record.
-/

import CrewCanvas.Node.Basic

namespace CrewCanvas

open Json

def NodeKind.toJson (kind : NodeKind) : Json := .text kind.name

def NodeKind.decode : Decoder NodeKind :=
  Decode.variant (NodeKind.all.map (fun kind => (kind.name, kind)))

def LineKind.toJson (line : LineKind) : Json := .text line.name

def LineKind.decode : Decoder LineKind :=
  Decode.variant (LineKind.all.map (fun line => (line.name, line)))

namespace Position

def toJson (position : Position) : Json :=
  .record [("x", .ofReal position.x), ("y", .ofReal position.y)]

def decode : Decoder Position := fun origin doc => do
  let (x, y, _) ←
    (Shape.field (.required "x" Decode.real) (.field (.required "y" Decode.real) .none)).decode
      "struct Position" origin doc
  return ⟨x, y⟩

end Position

def Json.Field.textOrEmpty (name : String) : Field String :=
  .defaulted name Decode.text ""

namespace AgentData

def toJson (data : AgentData) : Json :=
  .record
    [("name", .text data.name), ("role", .text data.role), ("goal", .text data.goal),
      ("backstory", .text data.backstory), ("tools", .text data.tools)]

def decode : Decoder AgentData := fun origin doc => do
  let (name, role, goal, backstory, tools, _) ←
    (Shape.field (.textOrEmpty "name") (.field (.textOrEmpty "role")
      (.field (.textOrEmpty "goal") (.field (.textOrEmpty "backstory")
        (.field (.textOrEmpty "tools") .none))))).decode "struct AgentData" origin doc
  return { name, role, goal, backstory, tools }

end AgentData

namespace TaskData

def toJson (data : TaskData) : Json :=
  .record
    [("name", .text data.name), ("description", .text data.description),
      ("expected_output", .text data.expectedOutput)]

def decode : Decoder TaskData := fun origin doc => do
  let (name, description, expectedOutput, _) ←
    (Shape.field (.textOrEmpty "name") (.field (.textOrEmpty "description")
      (.field (.textOrEmpty "expected_output") .none))).decode "struct TaskData" origin doc
  return { name, description, expectedOutput }

end TaskData

def decodeBeginData : Decoder Unit := Shape.none.decode "struct BeginData"

def rerouteDataToJson (claimed : Option LineKind) : Json :=
  match claimed with
  | none => .record []
  | some line => .record [("claimedType", line.toJson)]

def decodeRerouteData : Decoder (Option LineKind) := fun origin doc => do
  let (claimed, _) ←
    (Shape.field (.defaulted "claimedType" (Decode.optional LineKind.decode) none) .none).decode
      "struct RerouteData" origin doc
  return claimed

namespace NodeData

/-- The record as free data: its keys are sorted. -/
def toJson (data : NodeData) : Json :=
  match data with
  | begin => .record []
  | agent data =>
      .record
        [("backstory", .text data.backstory), ("goal", .text data.goal), ("name", .text data.name),
          ("role", .text data.role), ("tools", .text data.tools)]
  | task data =>
      .record
        [("description", .text data.description), ("expected_output", .text data.expectedOutput),
          ("name", .text data.name)]
  | reroute claimed => rerouteDataToJson claimed

def decode (kind : NodeKind) : Decoder NodeData := fun origin doc =>
  match kind with
  | .begin => (decodeBeginData origin doc).map (fun _ => begin)
  | .agent => (AgentData.decode origin doc).map agent
  | .task => (TaskData.decode origin doc).map task
  | .reroute => (decodeRerouteData origin doc).map reroute

def ofJson (kind : NodeKind) (value : Json) : Except Error NodeData :=
  match value with
  | .null => .ok (empty kind)
  | value => (decodeValue (decode kind) value).mapError (Error.invalidData kind.name)

end NodeData

end CrewCanvas
