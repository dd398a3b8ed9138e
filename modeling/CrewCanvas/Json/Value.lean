/-
JSON values.

An object is a list of fields in writing order.  A record is written in the
order of its declaration; free data is kept sorted by key, each key once.
-/

import CrewCanvas.Number.Binary64

namespace CrewCanvas

namespace Json

inductive Number
  | int (value : Int)
  | real (value : Binary64)
  deriving DecidableEq

end Json

inductive Json
  | null
  | bool (value : Bool)
  | number (value : Json.Number)
  | text (value : String)
  | list (items : List Json)
  | record (fields : List (String × Json))

namespace Json

instance : Inhabited Json := ⟨null⟩

def ofBool (value : Bool) : Json := bool value

def ofInt (value : Int) : Json := number (.int value)

def ofReal (value : Binary64) : Json := number (.real value)

def ofTexts (values : List String) : Json := list (values.map text)

def ofText? : Option String → Json
  | none => null
  | some value => text value

/-- Sets a key of a sorted field list: the last value of a key wins. -/
def insertField (key : String) (value : Json) :
    List (String × Json) → List (String × Json)
  | [] => [(key, value)]
  | (other, kept) :: rest =>
      if key < other then (key, value) :: (other, kept) :: rest
      else if key = other then (key, value) :: rest
      else (other, kept) :: insertField key value rest

def sortFields (fields : List (String × Json)) : List (String × Json) :=
  fields.foldl (fun sorted field => insertField field.1 field.2 sorted) []

def field? (key : String) : Json → Option Json
  | record fields => (fields.find? (fun field => field.1 = key)).map Prod.snd
  | _ => none

mutual

/-- Structural equality.  Numbers are equal only if they are spelled alike. -/
def same : Json → Json → Bool
  | null, null => true
  | bool left, bool right => left == right
  | number left, number right => left = right
  | text left, text right => left == right
  | list left, list right => sameList left right
  | record left, record right => sameFields left right
  | _, _ => false

def sameList : List Json → List Json → Bool
  | [], [] => true
  | left :: lefts, right :: rights => same left right && sameList lefts rights
  | _, _ => false

def sameFields : List (String × Json) → List (String × Json) → Bool
  | [], [] => true
  | (key, left) :: lefts, (other, right) :: rights =>
      key == other && same left right && sameFields lefts rights
  | _, _ => false

end

end Json

end CrewCanvas
