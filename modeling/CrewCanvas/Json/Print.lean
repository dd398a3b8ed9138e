/-
JSON text of a value: compact, or indented by two blanks a level.

Fields are written in the order in which the object lists them.  Numbers that
are not finite have no JSON form and are written as null.
-/

import CrewCanvas.Json.Value
import CrewCanvas.Number.Layout

namespace CrewCanvas.Json

/-- Numbers are written positionally from 0.00001 up to sixteen digits before
the point, and an integral number keeps `.0`. -/
def numberLayout : NumberLayout :=
  { lowestPositional := -5
    firstScientific := 16
    integralMark := ".0"
    exponentMark := "e"
    positiveSign := "+"
    nonFinite := "null" }

def hexDigit (n : Nat) : Char := Nat.digitChar n

def escape (c : Char) : List Char :=
  if c = '"' then ['\\', '"']
  else if c = '\\' then ['\\', '\\']
  else if c.toNat = 8 then ['\\', 'b']
  else if c.toNat = 9 then ['\\', 't']
  else if c.toNat = 10 then ['\\', 'n']
  else if c.toNat = 12 then ['\\', 'f']
  else if c.toNat = 13 then ['\\', 'r']
  else if c.toNat < 32 then
    ['\\', 'u', '0', '0', hexDigit (c.toNat / 16), hexDigit (c.toNat % 16)]
  else [c]

def quote (text : List Char) : List Char :=
  '"' :: (text.flatMap escape ++ ['"'])

def Number.write : Number → List Char
  | .int value =>
      if value < 0 then '-' :: Nat.toDigits 10 value.natAbs else Nat.toDigits 10 value.natAbs
  | .real value => numberLayout.write value

/-- What stands between the parts of an open list or object: nothing in compact
text, else a line break and the indentation of the level. -/
inductive Spacing
  | compact
  | indented (level : Nat)

namespace Spacing

def deeper : Spacing → Spacing
  | compact => compact
  | indented level => indented (level + 1)

def lineBreak : Spacing → List Char
  | compact => []
  | indented level => '\n' :: List.replicate (2 * level) ' '

def afterKey : Spacing → List Char
  | compact => [':']
  | indented _ => [':', ' ']

end Spacing

mutual

def write (spacing : Spacing) : Json → List Char
  | null => ['n', 'u', 'l', 'l']
  | bool true => ['t', 'r', 'u', 'e']
  | bool false => ['f', 'a', 'l', 's', 'e']
  | number value => value.write
  | text value => quote value.toList
  | list [] => ['[', ']']
  | list (first :: rest) =>
      '[' :: (spacing.deeper.lineBreak ++ (write spacing.deeper first ++
        (writeItems spacing.deeper rest ++ (spacing.lineBreak ++ [']']))))
  | record [] => ['{', '}']
  | record ((key, value) :: rest) =>
      '{' :: (spacing.deeper.lineBreak ++ (quote key.toList ++ (spacing.afterKey ++
        (write spacing.deeper value ++
          (writeFields spacing.deeper rest ++ (spacing.lineBreak ++ ['}']))))))

def writeItems (spacing : Spacing) : List Json → List Char
  | [] => []
  | item :: rest =>
      ',' :: (spacing.lineBreak ++ (write spacing item ++ writeItems spacing rest))

def writeFields (spacing : Spacing) : List (String × Json) → List Char
  | [] => []
  | (key, value) :: rest =>
      ',' :: (spacing.lineBreak ++ (quote key.toList ++ (spacing.afterKey ++
        (write spacing value ++ writeFields spacing rest))))

end

def compactText (value : Json) : String := String.ofList (write .compact value)

def indentedText (value : Json) : String := String.ofList (write (.indented 0) value)

end CrewCanvas.Json
