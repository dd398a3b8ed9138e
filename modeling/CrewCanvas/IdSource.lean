/-
Sources of ids.

A source is an endless sequence of texts and the number of those that were drawn.
Sequential ids count up behind a fixed text.  Random ids are the terms of an
arithmetic progression with an odd step modulo a power of two, so that no value
comes twice within a period; a seed starts the progression.

The number of draws is a natural number.  A counter of 64 bits agrees with it for
fewer than 2 ^ 64 draws; what lies beyond is not described here.
-/

import CrewCanvas.Number.Word
import CrewCanvas.Settings.Basic

namespace CrewCanvas

structure IdSource where
  draw : Nat → String
  drawn : Nat := 0

namespace IdSource

def next (source : IdSource) : String × IdSource :=
  (source.draw source.drawn, { source with drawn := source.drawn + 1 })

def sequential (lead : String) : IdSource :=
  { draw := fun count => lead ++ toString count }

def cycle (ids : List String) : IdSource :=
  { draw := fun count => (ids[count % ids.length]?).getD "" }

def step : Nat := 0x9E3779B97F4A7C15F39CC0605CEDC835

def spread (bits seed count : Nat) : Nat := (seed + count * step) % Word.size bits

def spell (alphabet : List Char) : (width value : Nat) → List Char
  | 0, _ => []
  | width + 1, value =>
      spell alphabet width (value / alphabet.length) ++
        [(alphabet[value % alphabet.length]?).getD '0']

def tokenAlphabet : List Char :=
  "_-0123456789abcdefghijklmnopqrstuvwxyzABCDEFGHIJKLMNOPQRSTUVWXYZ".toList

def hexAlphabet : List Char := "0123456789abcdef".toList

def token (seed count : Nat) : String :=
  String.ofList (spell tokenAlphabet 21 (spread 126 seed count))

/-- A random UUID in lower case: 122 bits, and the marks of version and variant. -/
def uuidText (seed count : Nat) : String :=
  let value := spread 122 seed count
  let field (low width : Nat) : Nat := value / Word.size low % Word.size width
  let groups :=
    [spell hexAlphabet 8 (field 90 32), spell hexAlphabet 4 (field 74 16),
      spell hexAlphabet 4 (0x4000 + field 62 12), spell hexAlphabet 4 (0x8000 + field 48 14),
      spell hexAlphabet 12 (field 0 48)]
  String.intercalate "-" (groups.map String.ofList)

def nanoid (seed : Nat) : IdSource := { draw := token seed }

def uuid (seed : Nat) : IdSource := { draw := uuidText seed }

def ofSettings (settings : IdSettings) (seed : Nat) : IdSource :=
  match settings.strategy with
  | .sequential => sequential settings.lead
  | .nanoid => nanoid seed
  | .uuid => uuid seed

end IdSource

end CrewCanvas
