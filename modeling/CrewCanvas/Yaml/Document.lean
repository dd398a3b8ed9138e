/-
YAML documents: an ordered mapping of keys to records of texts.

A key is written in front of its colon where it fits one line of 128 bytes;
a longer one is written behind a question mark.
-/

import CrewCanvas.Yaml.Scalar

namespace CrewCanvas.Yaml

/-- The fields of an entry, each a plain name with a text. -/
abbrev Fields := List (String × String)

abbrev Document := List (String × Fields)

/-- Sets the fields of a key.  A key that is there already keeps its place. -/
def Document.set (key : String) (fields : Fields) : Document → Document
  | [] => [(key, fields)]
  | (other, kept) :: rest =>
      if other = key then (other, fields) :: rest
      else (other, kept) :: Document.set key fields rest

def ofEntries (entries : List (String × Fields)) : Document :=
  entries.foldl (fun document entry => Document.set entry.1 entry.2 document) []

def writeField (field : String × String) : List Char :=
  field.1.toList ++ ':' :: ' ' :: writeScalar 4 (style false field.2) field.2.toList

def writeFields (fields : Fields) : List Char :=
  fields.flatMap (fun field => spaces 2 ++ writeField field)

def isSimpleKey (key : String) : Bool :=
  key.utf8ByteSize ≤ 128 && !key.toList.any isBreak

def writeKey (key : String) : List Char := (writeScalar 2 (style true key) key.toList).dropLast

def writeEntry (entry : String × Fields) : List Char :=
  if isSimpleKey entry.1 then writeKey entry.1 ++ ':' :: '\n' :: writeFields entry.2
  else
    '?' :: ' ' :: (writeScalar 2 (style false entry.1) entry.1.toList ++
      ':' :: (writeFields entry.2).drop 1)

def Document.toText (document : Document) : String :=
  String.ofList (if document.isEmpty then ['\x7b', '\x7d', '\n'] else document.flatMap writeEntry)

end CrewCanvas.Yaml
