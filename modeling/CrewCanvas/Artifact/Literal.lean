/-
Single-quoted text literals of the scaffold's language.

A backslash, a quote and every control character are escaped, so that a literal
stays on one line and holds no quote but the two around it.
-/

namespace CrewCanvas.Literal

def isControl (c : Char) : Bool :=
  c.toNat < 0x20 || (0x7F ≤ c.toNat && c.toNat ≤ 0x9F)

def escape (c : Char) : List Char :=
  if c = '\\' then ['\\', '\\']
  else if c = '\'' then ['\\', '\'']
  else if c = '\n' then ['\\', 'n']
  else if c = '\r' then ['\\', 'r']
  else if c = '\t' then ['\\', 't']
  else if isControl c then
    ['\\', 'x', Nat.digitChar (c.toNat / 16), Nat.digitChar (c.toNat % 16)]
  else [c]

def write (text : List Char) : List Char :=
  '\'' :: (text.flatMap escape ++ ['\''])

def ofText (text : String) : String := String.ofList (write text.toList)

end CrewCanvas.Literal
