/-
Reading values of fixed shape from JSON documents.

A decoder meets the parts of a document in their order and answers the first
problem.  A document that comes from a text may nest 127 lists and objects, and
what follows the last element of a record written as a list makes the text
malformed; a value in memory has no such limits and answers every problem with
its cause.
-/

import CrewCanvas.Json.Fault

namespace CrewCanvas.Json

/-- Where a document comes from, with the nesting a text may still take on. -/
inductive Origin
  | text (room : Nat)
  | memory

abbrev Decoder (α : Type) := Origin → Doc → Except Fault α

namespace Origin

/-- A whole text: a list or object nested 128 deep is refused. -/
def wholeText : Origin := text 127

def enter : Origin → Except Fault Origin
  | text 0 => .error .malformed
  | text (room + 1) => .ok (text room)
  | memory => .ok memory

end Origin

namespace Decode

def wrongType (expected : String) (doc : Doc) : Fault :=
  match doc with
  | .broken => .malformed
  | .null => .mismatch (.wrongType .null expected)
  | .bool value => .mismatch (.wrongType (.bool value) expected)
  | .number none => .malformed
  | .number (some value) => .mismatch (.wrongType (.number value) expected)
  | .text none => .malformed
  | .text (some value) => .mismatch (.wrongType (.text value) expected)
  | .list _ _ => .mismatch (.wrongType .list expected)
  | .record _ _ => .mismatch (.wrongType .record expected)

def text : Decoder String
  | _, .text (some value) => .ok value
  | _, doc => .error (wrongType "a string" doc)

def bool : Decoder Bool
  | _, .bool value => .ok value
  | _, doc => .error (wrongType "a boolean" doc)

def real : Decoder Binary64
  | _, .number (some (.real value)) => .ok value
  | _, .number (some (.int value)) => .ok (Binary64.ofInt value)
  | _, doc => .error (wrongType "f64" doc)

def int : Decoder Int
  | _, .number (some (.int value)) =>
      if Word.fitsSigned 64 value then .ok value
      else .error (.mismatch (.wrongValue (.number (.int value)) "i64"))
  | _, doc => .error (wrongType "i64" doc)

def optional {α : Type} (decode : Decoder α) : Decoder (Option α)
  | _, .null => .ok none
  | origin, doc => (decode origin doc).map some

def elements {α : Type} (decode : Decoder α) (origin : Origin) :
    List Doc → Except Fault (List α)
  | [] => .ok []
  | item :: rest => do
      let first ← decode origin item
      let others ← elements decode origin rest
      return first :: others

def list {α : Type} (decode : Decoder α) : Decoder (List α)
  | origin, .list items closed => do
      let inner ← origin.enter
      let values ← elements decode inner items
      if closed then return values else .error .malformed
  | _, doc => .error (wrongType "a sequence" doc)

mutual

/-- Any value; the last field of a repeated key wins. -/
def any (origin : Origin) (doc : Doc) : Except Fault Json :=
  match doc with
  | .null => .ok .null
  | .bool value => .ok (.bool value)
  | .number (some value) => .ok (.number value)
  | .text (some value) => .ok (.text value)
  | .list items closed => do
      let inner ← origin.enter
      let values ← anyItems inner items
      if closed then return .list values else .error .malformed
  | .record fields closed => do
      let inner ← origin.enter
      let values ← anyFields inner fields []
      if closed then return .record values else .error .malformed
  | _ => .error .malformed

def anyItems (origin : Origin) (items : List Doc) : Except Fault (List Json) :=
  match items with
  | [] => .ok []
  | item :: rest => do
      let first ← any origin item
      let others ← anyItems origin rest
      return first :: others

def anyFields (origin : Origin) (fields : List (Doc × Doc)) (sorted : List (String × Json)) :
    Except Fault (List (String × Json)) :=
  match fields with
  | [] => .ok sorted
  | (.text (some key), value) :: rest => do
      let value ← any origin value
      anyFields origin rest (insertField key value sorted)
  | _ :: _ => .error .malformed

end

def variantOf {α : Type} (known : List (String × α)) (name : String) : Except Fault α :=
  match known.find? (fun variant => variant.1 = name) with
  | some variant => .ok variant.2
  | none => .error (.mismatch (.unknownVariant name (known.map Prod.fst)))

def unit : Decoder Unit
  | _, .null => .ok ()
  | _, doc => .error (wrongType "unit" doc)

def variantKey : Doc → Except Fault String
  | .text (some name) => .ok name
  | doc => .error (wrongType "variant identifier" doc)

/-- The name of a variant and the document of its content, if it has one, with
whether that document is the last part of its object. -/
structure VariantParts where
  name : String
  content : Option Doc
  ended : Bool
  inside : Origin

/-- A variant is a text, or an object of one field. -/
def variantParts : Origin → Doc → Except Fault VariantParts
  | origin, .text (some name) => .ok ⟨name, none, true, origin⟩
  | .text room, .record fields closed => do
      let inner ← (Origin.text room).enter
      match fields with
      | [] => .error .malformed
      | (key, content) :: rest =>
          let name ← variantKey key
          return ⟨name, some content, rest.isEmpty && closed, inner⟩
  | .text _, _ => .error .malformed
  | .memory, .record [(key, content)] _ => do
      let name ← variantKey key
      return ⟨name, some content, true, .memory⟩
  | .memory, .record _ _ =>
      .error (.mismatch (.wrongValue .record "map with a single key"))
  | .memory, doc => .error (wrongType "string or map" doc)

def variant {α : Type} (known : List (String × α)) : Decoder α := fun origin doc => do
  let parts ← variantParts origin doc
  let value ← variantOf known parts.name
  match parts.content with
  | none => return value
  | some content => do
      let _ ← unit parts.inside content
      if parts.ended then return value else .error .malformed

end Decode

end CrewCanvas.Json
