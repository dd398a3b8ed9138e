/-
TOML texts in quotes, on one line or on several, with or without escapes.
-/

import CrewCanvas.Number.Digits

namespace CrewCanvas.Toml

def isTextChar (c : Char) : Bool :=
  c == '\t' || (0x20 ≤ c.toNat && c.toNat != 0x7F)

def isSpace (c : Char) : Bool := c == ' ' || c == '\t'

def charOfCode? (code : Nat) : Option Char :=
  if h : code.isValidChar then some (Char.ofNatAux code h) else none

def codeEscape? (width : Nat) (text : List Char) : Option (Char × List Char) := do
  let digits := text.take width
  if digits.length < width then none
  let code ← Digits.radixValue? 16 digits
  let c ← charOfCode? code
  return (c, text.drop width)

def escape? : List Char → Option (Char × List Char)
  | [] => none
  | letter :: rest =>
      if letter = 'b' then some (Char.ofNat 8, rest)
      else if letter = 't' then some ('\t', rest)
      else if letter = 'n' then some ('\n', rest)
      else if letter = 'f' then some (Char.ofNat 12, rest)
      else if letter = 'r' then some ('\r', rest)
      else if letter = 'e' then some (Char.ofNat 27, rest)
      else if letter = '"' then some ('"', rest)
      else if letter = '\\' then some ('\\', rest)
      else if letter = 'x' then codeEscape? 2 rest
      else if letter = 'u' then codeEscape? 4 rest
      else if letter = 'U' then codeEscape? 8 rest
      else none

def basic? : List Char → Option (List Char × List Char)
  | [] => none
  | c :: rest =>
      if c = '"' then some ([], rest)
      else if c = '\\' then
        match escape? rest with
        | none => none
        | some (c, after) =>
            if _shorter : after.length ≤ rest.length then
              (basic? after).map (fun (more, left) => (c :: more, left))
            else none
      else if isTextChar c then (basic? rest).map (fun (more, left) => (c :: more, left))
      else none
termination_by text => text.length

def literal? : List Char → Option (List Char × List Char)
  | [] => none
  | c :: rest =>
      if c = '\'' then some ([], rest)
      else if isTextChar c then (literal? rest).map (fun (more, left) => (c :: more, left))
      else none

def lineBreak? : List Char → Option (List Char)
  | '\n' :: rest => some rest
  | '\r' :: '\n' :: rest => some rest
  | _ => none

def skipLines : List Char → List Char
  | '\n' :: rest => skipLines rest
  | '\r' :: '\n' :: rest => skipLines rest
  | c :: rest => if isSpace c then skipLines rest else c :: rest
  | [] => []

def continued? (text : List Char) : Option (List Char) :=
  (lineBreak? (text.dropWhile isSpace)).map skipLines

/-- A run of at least three quotes ends a text; up to two more before the last
three belong to it.  Answers how many belong to it and what follows. -/
def closing? (quote : Char) (text : List Char) : Option (Nat × List Char) :=
  let count := min (text.takeWhile (· == quote)).length 5
  if 3 ≤ count then some (count - 3, text.drop count) else none

/-- The rest of a text on several lines, up to its three quotes.  Escapes are read
where the quote is the double one. -/
def lines? (quote : Char) (escapes : Bool) (text : List Char) :
    Option (List Char × List Char) :=
  match closing? quote text, text with
  | some (kept, rest), _ => some (List.replicate kept quote, rest)
  | none, [] => none
  | none, c :: rest =>
      let go (read : List Char) (after : List Char) : Option (List Char × List Char) :=
        if _shorter : after.length ≤ rest.length then
          (lines? quote escapes after).map (fun (more, left) => (read ++ more, left))
        else none
      if escapes ∧ c = '\\' then
        match continued? rest, escape? rest with
        | some after, _ => go [] after
        | none, some (c, after) => go [c] after
        | none, none => none
      else if c = '\n' ∨ (c = '\r' ∧ rest.head? = some '\n') ∨ isTextChar c then go [c] rest
      else none
termination_by text.length

def dropFirstBreak (text : List Char) : List Char := (lineBreak? text).getD text

def quotedLine? : List Char → Option (String × List Char)
  | '"' :: rest => (basic? rest).map (fun (text, left) => (String.ofList text, left))
  | '\'' :: rest => (literal? rest).map (fun (text, left) => (String.ofList text, left))
  | _ => none

def quoted? : List Char → Option (String × List Char)
  | '"' :: '"' :: '"' :: rest =>
      (lines? '"' true (dropFirstBreak rest)).map (fun (text, left) => (String.ofList text, left))
  | '\'' :: '\'' :: '\'' :: rest =>
      (lines? '\'' false (dropFirstBreak rest)).map (fun (text, left) => (String.ofList text, left))
  | text => quotedLine? text

end CrewCanvas.Toml
