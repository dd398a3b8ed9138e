/-
YAML texts: which style a text can be written in, and how each style writes it.

A text is written plain where its characters allow it.  Characters that mean
something in their place ask for quotes, characters without a printed form for
double quotes, and a text of several lines is written as a block.
-/

import CrewCanvas.Yaml.Plain

namespace CrewCanvas.Yaml

inductive Style
  | plain
  | singleQuoted
  | doubleQuoted
  | literal
  deriving DecidableEq

/-! ### Characters -/

def isBreak (c : Char) : Bool :=
  c == '\r' || c == '\n' || c.toNat == 0x85 || c.toNat == 0x2028 || c.toNat == 0x2029

/-- Whether a character separates words; the end of a text does too. -/
def isGap : Option Char → Bool
  | none => true
  | some c => c == ' ' || c == '\t' || c.toNat == 0 || isBreak c

def isPrintable (c : Char) : Bool :=
  let code := c.toNat
  code == 0x0A || (0x20 ≤ code && code ≤ 0x7E) || (0xA0 ≤ code && code ≤ 0xD7FF) ||
    (0xE000 ≤ code && code ≤ 0xFFFD && code != 0xFEFF) || 0x10000 ≤ code

def leadIndicators : List Char :=
  ['#', ',', '[', ']', '\x7b', '\x7d', '&', '*', '!', '|', '>', '\'', '"', '%', '@', '\x60']

def indicatesFirst (c : Char) (next : Option Char) : Bool :=
  leadIndicators.contains c || ((c == '?' || c == ':' || c == '-') && isGap next)

def indicatesLater (previous c : Char) (next : Option Char) : Bool :=
  (c == ':' && isGap next) || (c == '#' && isGap (some previous))

def anyInside (holds : Char → Char → Option Char → Bool) : List Char → Bool
  | previous :: c :: rest =>
      holds previous c rest.head? || anyInside holds (c :: rest)
  | _ => false

def isBoundary : List Char → Bool
  | '-' :: '-' :: '-' :: _ => true
  | '.' :: '.' :: '.' :: _ => true
  | _ => false

def hasIndicators (text : List Char) : Bool :=
  isBoundary text ||
    (match text with
      | [] => false
      | c :: rest => indicatesFirst c rest.head?) ||
    anyInside indicatesLater text

def anyPair (left right : Char → Bool) : List Char → Bool
  | c :: d :: rest => (left c && right d) || anyPair left right (d :: rest)
  | _ => false

def isSpace (c : Char) : Bool := c == ' '

def startsOrEnds (holds : Char → Bool) (text : List Char) : Bool :=
  text.head?.any holds || text.getLast?.any holds

/-! ### Styles -/

/-- Double quotes alone can hold unprinted characters and spaces before a break. -/
def needsEscapes (text : List Char) : Bool :=
  text.any (fun c => !isPrintable c) || anyPair isSpace isBreak text

def allowsPlain (text : List Char) : Bool :=
  !needsEscapes text && !text.any isBreak && !startsOrEnds isSpace text && !hasIndicators text

def allowsSingle (text : List Char) : Bool :=
  !needsEscapes text && !anyPair isBreak isSpace text

def allowsLiteral (text : List Char) : Bool :=
  !needsEscapes text && !text.isEmpty && !text.getLast?.any isSpace

/-- The style a text asks for by what it would be read as. -/
def wanted (text : String) : Style :=
  if text.toList.contains '\n' then .literal
  else if isAmbiguous text then .singleQuoted
  else .plain

def style (asKey : Bool) (text : String) : Style :=
  let chars := text.toList
  let wished := if asKey && chars.any isBreak then .doubleQuoted else wanted text
  match wished with
  | .doubleQuoted => .doubleQuoted
  | .literal => if asKey || !allowsLiteral chars then .doubleQuoted else .literal
  | .plain =>
      if allowsPlain chars then .plain
      else if allowsSingle chars then .singleQuoted
      else .doubleQuoted
  | .singleQuoted => if allowsSingle chars then .singleQuoted else .doubleQuoted

/-! ### Writing -/

def hexUpper (n : Nat) : Char := (Nat.digitChar n).toUpper

/-- The last `width` hexadecimal digits of a number. -/
def hexCode : (width code : Nat) → List Char
  | 0, _ => []
  | width + 1, code => hexCode width (code / 16) ++ [hexUpper (code % 16)]

def escapeNames : List (Nat × Char) :=
  [(0x00, '0'), (0x07, 'a'), (0x08, 'b'), (0x09, 't'), (0x0A, 'n'), (0x0B, 'v'), (0x0C, 'f'),
    (0x0D, 'r'), (0x1B, 'e'), (0x22, '"'), (0x5C, '\\'), (0x85, 'N'), (0x2028, 'L'),
    (0x2029, 'P')]

def escape (c : Char) : List Char :=
  if isPrintable c && !isBreak c && c != '"' && c != '\\' then [c]
  else
    let code := c.toNat
    match escapeNames.find? (fun entry => entry.1 = code) with
    | some entry => ['\\', entry.2]
    | none =>
        if code ≤ 0xFF then '\\' :: 'x' :: hexCode 2 code
        else if code ≤ 0xFFFF then '\\' :: 'u' :: hexCode 4 code
        else '\\' :: 'U' :: hexCode 8 code

def spaces (count : Nat) : List Char := List.replicate count ' '

/-- A text whose lines are indented.  A line is indented where its first character
is written; `atStart` says that the next character would be the first. -/
def indentLines (indent : Nat) (write : Char → List Char) (atStart : Bool) :
    List Char → List Char
  | [] => []
  | c :: rest =>
      if isBreak c then c :: indentLines indent write true rest
      else
        let lead := if atStart then spaces indent else []
        lead ++ (write c ++ indentLines indent write false rest)

def doubleQuote (c : Char) : List Char := if c = '\'' then ['\'', '\''] else [c]

def singleQuoted (indent : Nat) (text : List Char) : List Char :=
  let close := if text.getLast?.any isBreak then spaces indent else []
  '\'' :: (indentLines indent doubleQuote false text ++ close ++ ['\''])

/-- The header of a block: the indentation where the text starts with a space or a
break, and what becomes of the breaks at its end. -/
def literalHeader (text : List Char) : List Char :=
  let hint := if text.head?.any (fun c => isSpace c || isBreak c) then ['2'] else []
  let chomp :=
    match text.reverse with
    | [] => ['-']
    | [last] => if isBreak last then ['+'] else ['-']
    | last :: before :: _ =>
        if !isBreak last then ['-'] else if isBreak before then ['+'] else []
  '|' :: (hint ++ chomp)

def writeScalar (indent : Nat) (style : Style) (text : List Char) : List Char :=
  match style with
  | .plain => text ++ ['\n']
  | .singleQuoted => singleQuoted indent text ++ ['\n']
  | .doubleQuoted => '"' :: (text.flatMap escape ++ ['"', '\n'])
  | .literal =>
      let ending := if text.getLast?.any isBreak then [] else ['\n']
      literalHeader text ++ '\n' :: (indentLines indent (fun c => [c]) true text ++ ending)

end CrewCanvas.Yaml
