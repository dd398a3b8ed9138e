/-
Errors of a crew canvas.

An error is a record that can be exchanged: its variant says which part refused,
its text why.  A rejected connection is not an error.  Every wording of the
graph, the editor and the store is fixed in this module.
-/

import CrewCanvas.Json.Shape

namespace CrewCanvas

inductive Error
  | config (text : String)
  | convert (text : String)
  | graph (text : String)
  | node (text : String)
  | edge (text : String)
  | notFound (kind id : String)
  | store (text : String)
  | io (text : String)
  deriving DecidableEq

namespace Error

def variantName : Error → String
  | config _ => "Config"
  | convert _ => "Convert"
  | graph _ => "Graph"
  | node _ => "Node"
  | edge _ => "Edge"
  | notFound _ _ => "NotFound"
  | store _ => "Store"
  | io _ => "IoError"

def message : Error → String
  | config text => text
  | convert text => text
  | graph text => text
  | node text => text
  | edge text => text
  | notFound kind id => kind ++ " " ++ id ++ " not found"
  | store text => text
  | io text => text

def isNotFound : Error → Bool
  | notFound _ _ => true
  | _ => false

/-! ### Causes -/

def nodeNotFound (id : String) : Error := notFound "node" id

def edgeNotFound (id : String) : Error := notFound "edge" id

def nodeTaken (id : String) : Error := graph ("node " ++ id ++ " already exists")

def beginTaken (id : String) : Error := graph ("begin node " ++ id ++ " already exists")

def notReroute (id : String) : Error := node ("node " ++ id ++ " is not a reroute node")

def edgeTaken (id : String) : Error := edge ("edge " ++ id ++ " already exists")

def sourceMissing (id : String) : Error := edge ("source node " ++ id ++ " not found")

def targetMissing (id : String) : Error := edge ("target node " ++ id ++ " not found")

def invalidHandle (name : String) : Error := edge ("invalid handle '" ++ name ++ "'")

def invalidKind (name : String) : Error := node ("invalid node type '" ++ name ++ "'")

def invalidData (kind : String) (cause : Json.Fault) : Error :=
  node ("invalid " ++ kind ++ " data: " ++ cause.message?.getD "malformed")

def noField (kind field : String) : Error :=
  node (kind ++ " node has no editable field '" ++ field ++ "'")

def idsExhausted : Error := graph "id generator exhausted"

def nameRequired (purpose : String) : Error := store ("name required to " ++ purpose)

def savedMissing (name : String) : Error := store ("graph " ++ name ++ " not found")

def unavailable (method : String) : Error := store (method ++ " unavailable")

def settingsUnread (path reason : String) : Error :=
  config ("failed to load config file " ++ Text.quoted true path ++ ": " ++ reason)

/-! ### Errors of other layers -/

def position? (digits : List Char) : Option Nat :=
  if digits.isEmpty then none
  else
    let value := Digits.value digits
    if Word.fits 64 value then some value else none

def after? : List Char → List Char → Option (List Char)
  | [], text => some text
  | _ :: _, [] => none
  | c :: lead, d :: text => if c = d then after? lead text else none

def sourcePosition? (text : List Char) : Option (Nat × Nat) := do
  let afterLine ← after? " at line ".toList text
  let afterColumn ← after? " column ".toList (afterLine.dropWhile Char.isDigit)
  if afterColumn.all Char.isDigit then
    let line ← position? (afterLine.takeWhile Char.isDigit)
    let column ← position? afterColumn
    return (line, column)
  else none

/-- A message before the last place where a source position may start, and the
text from there. -/
def splitPosition? : List Char → Option (List Char × List Char)
  | [] => none
  | c :: rest =>
      match splitPosition? rest with
      | some (before, found) => some (c :: before, found)
      | none =>
          if (after? " at line ".toList (c :: rest)).isSome then some ([], c :: rest) else none

/-- A conversion message.  A source position at its end is written with plain
numbers, and line zero is no position. -/
def conversionText (text : String) : String :=
  match splitPosition? text.toList with
  | none => text
  | some (before, found) =>
      match sourcePosition? found with
      | none => text
      | some (line, column) =>
          if line = 0 then String.ofList before
          else
            String.ofList before ++ " at line " ++ toString line ++ " column " ++ toString column

def ofJson (text : String) : Error := convert (conversionText text)

def ofYaml (text : String) : Error := convert text

def ofToml (text : String) : Error := config (text ++ "\n")

def ofIo (text : String) : Error := io text

def toIo (error : Error) : String × String := ("Other", error.message)

/-! ### JSON form -/

def toJson : Error → Json
  | notFound kind id =>
      .record [("NotFound", .record [("kind", .text kind), ("id", .text id)])]
  | error => .record [(error.variantName, .text error.message)]

/-- What a variant holds: one text, or the kind and the id of what is missing. -/
inductive Content
  | oneText (make : String → Error)
  | reference

def variants : List (String × Content) :=
  [("Config", .oneText config), ("Convert", .oneText convert), ("Graph", .oneText graph),
    ("Node", .oneText node), ("Edge", .oneText edge), ("NotFound", .reference),
    ("Store", .oneText store), ("IoError", .oneText io)]

def referenceShape : Json.Shape (String × String × Unit)
    (Option String × Option String × Unit) :=
  .field (.required "kind" Json.Decode.text) (.field (.required "id" Json.Decode.text) .none)

def decodeContent (content : Content) : Json.Decoder Error := fun origin doc =>
  match content with
  | .oneText make => (Json.Decode.text origin doc).map make
  | .reference => do
      let (kind, id, _) ←
        referenceShape.decode "struct variant CrewgraphError::NotFound" origin doc
      return notFound kind id

def decode : Json.Decoder Error := fun origin doc => do
  let parts ← Json.Decode.variantParts origin doc
  let content ← Json.Decode.variantOf variants parts.name
  match parts.content with
  | some doc => do
      let error ← decodeContent content parts.inside doc
      if parts.ended then return error else .error .malformed
  | none =>
      let expected :=
        match content with
        | .oneText _ => "newtype variant"
        | .reference => "struct variant"
      .error (.mismatch (.wrongType .unitVariant expected))

end Error

end CrewCanvas
