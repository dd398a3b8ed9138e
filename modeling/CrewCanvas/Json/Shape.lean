/-
Records of fixed fields.

A record is read from an object, whose fields may come in any order beside
unknown ones, or from a list of its fields in the order of declaration.  Fields
are read where they stand, so the first problem of the text is the one answered;
fields that never came are settled at the end, in the order of declaration.
-/

import CrewCanvas.Json.Decode

namespace CrewCanvas.Json

/-- One field of a record.  A field with no value for its absence is required. -/
structure Field (α : Type) where
  name : String
  decode : Decoder α
  /-- The value where an object leaves the field out. -/
  absent : Option α
  /-- The value where a list ends before the field. -/
  beyond : Option α

namespace Field

def required {α : Type} (name : String) (decode : Decoder α) : Field α :=
  { name, decode, absent := none, beyond := none }

def optional {α : Type} (name : String) (decode : Decoder α) : Field (Option α) :=
  { name, decode := Decode.optional decode, absent := some none, beyond := none }

def defaulted {α : Type} (name : String) (decode : Decoder α) (value : α) : Field α :=
  { name, decode, absent := some value, beyond := some value }

end Field

/-- The fields of a record: the nested pair of their types, and the nested pair
of the values read so far. -/
inductive Shape : Type → Type → Type 1
  | none : Shape Unit Unit
  | field {α β σ : Type} (first : Field α) (rest : Shape β σ) : Shape (α × β) (Option α × σ)

namespace Shape

def emptySlots : {γ σ : Type} → Shape γ σ → σ
  | _, _, .none => ()
  | _, _, .field _ rest => (Option.none, rest.emptySlots)

def size : {γ σ : Type} → Shape γ σ → Nat
  | _, _, .none => 0
  | _, _, .field _ rest => rest.size + 1

def fill (origin : Origin) (key : String) (doc : Doc) :
    {γ σ : Type} → Shape γ σ → σ → Except Fault σ
  | _, _, .none, slots => if doc.isWhole then .ok slots else .error .malformed
  | _, _, .field first rest, (slot, others) =>
      if first.name = key then
        match slot with
        | some _ => .error (.mismatch (.duplicateField key))
        | Option.none => do
            let value ← first.decode origin doc
            return (some value, others)
      else do
        let others ← rest.fill origin key doc others
        return (slot, others)

def fillAll {γ σ : Type} (origin : Origin) (shape : Shape γ σ) :
    List (Doc × Doc) → σ → Except Fault σ
  | [], slots => .ok slots
  | (.text (some key), doc) :: more, slots => do
      let slots ← shape.fill origin key doc slots
      fillAll origin shape more slots
  | _ :: _, _ => .error .malformed

/-- The record of the values read, absent fields in the order of declaration. -/
def finish : {γ σ : Type} → Shape γ σ → σ → Except Fault γ
  | _, _, .none, _ => .ok ()
  | _, _, .field first rest, (slot, others) => do
      let value ←
        match slot, first.absent with
        | some value, _ => Except.ok value
        | Option.none, some value => .ok value
        | Option.none, Option.none => .error (.mismatch (.missingField first.name))
      let values ← rest.finish others
      return (value, values)

/-- The record of a list of its fields, and the documents that are left.  `count`
fields came before. -/
def ofItems (origin : Origin) (expected : String) (closed : Bool) :
    {γ σ : Type} → Shape γ σ → (count : Nat) → List Doc → Except Fault (γ × List Doc)
  | _, _, .none, _, items => .ok ((), items)
  | _, _, .field first rest, count, [] => do
      if !closed then .error .malformed
      match first.beyond with
      | some value =>
          let (values, left) ← rest.ofItems origin expected closed (count + 1) []
          return ((value, values), left)
      | Option.none => .error (.mismatch (.wrongLength count expected))
  | _, _, .field first rest, count, item :: items => do
      let value ← first.decode origin item
      let (values, left) ← rest.ofItems origin expected closed (count + 1) items
      return ((value, values), left)

def countText (count : Nat) : String :=
  if count = 1 then "1 element" else toString count ++ " elements"

def tooLong (origin : Origin) (length : Nat) : Fault :=
  match origin with
  | .text _ => .malformed
  | .memory => .mismatch (.wrongLength length "fewer elements in array")

def decode {γ σ : Type} (expected : String) (shape : Shape γ σ) : Decoder γ
  | origin, .list items closed => do
      let inner ← origin.enter
      let described := expected ++ " with " ++ countText shape.size
      let (values, left) ← shape.ofItems inner described closed 0 items
      if left.isEmpty then
        if closed then return values else .error .malformed
      else .error (tooLong origin items.length)
  | origin, .record fields closed => do
      let inner ← origin.enter
      let slots ← shape.fillAll inner fields shape.emptySlots
      if closed then shape.finish slots else .error .malformed
  | _, doc => .error (Decode.wrongType expected doc)

end Shape

def decodeText {α : Type} (decode : Decoder α) (text : String) : Except Fault α := do
  let (doc, ended) := Doc.ofText text
  let value ← decode .wholeText doc
  if ended then return value else .error .malformed

def decodeValue {α : Type} (decode : Decoder α) (value : Json) : Except Fault α :=
  decode .memory (Doc.ofValue value)

def parse (text : String) : Except Fault Json := decodeText Decode.any text

end CrewCanvas.Json
