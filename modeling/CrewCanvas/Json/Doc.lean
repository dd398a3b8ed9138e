/-
The document of a JSON text, in reading order.

Reading never fails as a whole.  The place where a text stops being JSON is a
`broken` part of the document, and the lists and objects around it stay open, so
that a decoder walking the document meets the first problem of the text first.
Fields keep their order and their repetitions.
-/

import CrewCanvas.Json.Token

namespace CrewCanvas.Json

/-- The key of a field is a document too: a key that is not a text ends its
object, and only a reader of variants looks at it. -/
inductive Doc
  | broken
  | null
  | bool (value : Bool)
  /-- Without a value when the number is out of range. -/
  | number (value : Option Number)
  /-- Without a value when half of a surrogate pair stands alone. -/
  | text (value : Option String)
  | list (items : List Doc) (closed : Bool)
  | record (fields : List (Doc × Doc)) (closed : Bool)

namespace Doc

instance : Inhabited Doc := ⟨broken⟩

/-- An open list or object around the place being read, its parts newest first. -/
inductive Frame
  | items (before : List Doc)
  | fields (before : List (Doc × Doc))
  | fieldValue (before : List (Doc × Doc)) (key : Doc)

inductive Place
  | value
  | firstItem
  | firstKey
  | key
  | colon
  | afterPart

/-- The document of a text that stops inside the given frames: every frame stays
open, and the innermost holds the last part. -/
def stopped (part : Doc) : List Frame → Doc
  | [] => part
  | .items before :: outer => stopped (.list (part :: before).reverse false) outer
  | .fields before :: outer => stopped (.record before.reverse false) outer
  | .fieldValue before key :: outer =>
      stopped (.record ((key, part) :: before).reverse false) outer

def ofToken? : Token → Option Doc
  | .null => some .null
  | .bool value => some (.bool value)
  | .number value => some (.number value)
  | .text value => some (.text value)
  | _ => none

def strayKey : Token → Doc
  | .openList => .list [] false
  | .openRecord => .record [] false
  | token => (ofToken? token).getD .broken

def place (part : Doc) : List Frame → List Frame
  | [] => []
  | .items before :: outer => .items (part :: before) :: outer
  | .fieldValue before key :: outer => .fields ((key, part) :: before) :: outer
  | .fields before :: outer => .fields before :: outer

inductive Move
  | go (stack : List Frame) (expected : Place)
  | whole (doc : Doc)
  | stop (doc : Doc)

def complete (part : Doc) : List Frame → Move
  | [] => .whole part
  | frame :: outer => .go (place part (frame :: outer)) .afterPart

def startValue (stack : List Frame) : Token → Move
  | .openList => .go (.items [] :: stack) .firstItem
  | .openRecord => .go (.fields [] :: stack) .firstKey
  | token =>
      match ofToken? token with
      | some part => complete part stack
      | none => .stop (stopped .broken stack)

def startKey (stack : List Frame) (token : Token) : Move :=
  match token, stack with
  | .text key, .fields before :: outer => .go (.fieldValue before (.text key) :: outer) .colon
  | token, .fields before :: outer =>
      .stop (stopped .broken (.fieldValue before (strayKey token) :: outer))
  | _, stack => .stop (stopped .broken stack)

def step (stack : List Frame) (expected : Place) (token : Token) : Move :=
  match expected, token, stack with
  | .firstItem, .closeList, .items before :: outer => complete (.list before.reverse true) outer
  | .firstItem, token, stack => startValue stack token
  | .value, token, stack => startValue stack token
  | .firstKey, .closeRecord, .fields before :: outer =>
      complete (.record before.reverse true) outer
  | .firstKey, token, stack => startKey stack token
  | .key, token, stack => startKey stack token
  | .colon, .colon, stack => .go stack .value
  | .afterPart, .comma, .items before :: outer => .go (.items before :: outer) .value
  | .afterPart, .comma, .fields before :: outer => .go (.fields before :: outer) .key
  | .afterPart, .closeList, .items before :: outer => complete (.list before.reverse true) outer
  | .afterPart, .closeRecord, .fields before :: outer =>
      complete (.record before.reverse true) outer
  | _, _, stack => .stop (stopped .broken stack)

/-- Reads tokens from a place inside frames.  Answers the document, and whether
the text ends with it. -/
def read (stack : List Frame) (expected : Place) : List Token → Doc × Bool
  | [] => (stopped .broken stack, true)
  | token :: rest =>
      match step stack expected token with
      | .go stack expected => read stack expected rest
      | .whole doc => (doc, rest.isEmpty)
      | .stop doc => (doc, false)

def ofText (text : String) : Doc × Bool :=
  read [] .value (Token.ofChars text.toList)

def ofNumber (value : Number) : Doc := .number (some value)

mutual

def ofValue : Json → Doc
  | .null => .null
  | .bool value => .bool value
  | .number value => .number (some value)
  | .text value => .text (some value)
  | .list items => .list (ofValues items) true
  | .record fields => .record (ofFields fields) true

def ofValues : List Json → List Doc
  | [] => []
  | item :: rest => ofValue item :: ofValues rest

def ofFields : List (String × Json) → List (Doc × Doc)
  | [] => []
  | (key, value) :: rest => (.text (some key), ofValue value) :: ofFields rest

end

mutual

/-- Whether a document can be skipped: its text is JSON, whatever the depth of
its nesting and the range of its numbers. -/
def isWhole : Doc → Bool
  | .broken => false
  | .null => true
  | .bool _ => true
  | .number _ => true
  | .text _ => true
  | .list items closed => areWhole items && closed
  | .record fields closed => fieldsAreWhole fields && closed

def areWhole : List Doc → Bool
  | [] => true
  | item :: rest => item.isWhole && areWhole rest

def fieldsAreWhole : List (Doc × Doc) → Bool
  | [] => true
  | (.text _, value) :: rest => value.isWhole && fieldsAreWhole rest
  | _ :: _ => false

end

end Doc

end CrewCanvas.Json
