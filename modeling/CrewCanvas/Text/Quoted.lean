/-
Texts in double quotes, as they are shown inside a message.

Line breaks, tabs, the null character, quotes and backslashes have short forms;
any other character without a visible form is written by its number.
-/

import CrewCanvas.Text.Visible

namespace CrewCanvas.Text

def hexDigits (n : Nat) : List Char := Nat.toDigits 16 n

/-- A character as shown between quotes.  A single quote is marked only where
`singleQuotes` says so. -/
def showInQuotes (singleQuotes : Bool) (c : Char) : List Char :=
  if c.toNat = 0 then ['\\', '0']
  else if c = '\t' then ['\\', 't']
  else if c = '\r' then ['\\', 'r']
  else if c = '\n' then ['\\', 'n']
  else if c = '"' ∨ c = '\\' ∨ (c = '\'' ∧ singleQuotes) then ['\\', c]
  else if isVisible c then [c]
  else '\\' :: 'u' :: '\x7b' :: (hexDigits c.toNat ++ ['\x7d'])

def quoted (singleQuotes : Bool) (text : String) : String :=
  String.ofList ('"' :: (text.toList.flatMap (showInQuotes singleQuotes) ++ ['"']))

end CrewCanvas.Text
