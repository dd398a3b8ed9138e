/-
Reading TOML documents.

A document is read line by line into statements, which are then put together.
Arrays and inline tables may go over several lines, may end with a comma, and may
be nested eighty deep.
-/

import CrewCanvas.Toml.Quoted
import CrewCanvas.Toml.Scalar

namespace CrewCanvas.Toml

/-! ### Keys -/

def isKeyChar (c : Char) : Bool := c.isAlphanum || c == '_' || c == '-'

def key? (text : List Char) : Option (String × List Char) :=
  match quotedLine? text with
  | some read => some read
  | none =>
      let bare := text.takeWhile isKeyChar
      if bare.isEmpty then none else some (String.ofList bare, text.dropWhile isKeyChar)

/-- A key behind any keys and points: the keys before it, and the last one. -/
def keyPath? (text : List Char) : Option ((List String × String) × List Char) :=
  match key? (text.dropWhile isSpace) with
  | none => none
  | some (key, rest) =>
      match rest.dropWhile isSpace with
      | '.' :: more =>
          if _shorter : more.length < text.length then
            (keyPath? more).map (fun ((path, last), left) => ((key :: path, last), left))
          else none
      | rest => some (([], key), rest)
termination_by text.length

/-! ### Values -/

def skipGaps (inComment : Bool) : List Char → List Char
  | [] => []
  | '\n' :: rest => skipGaps false rest
  | '\r' :: '\n' :: rest => skipGaps false rest
  | c :: rest =>
      if inComment then if isTextChar c then skipGaps true rest else c :: rest
      else if isSpace c then skipGaps false rest
      else if c = '#' then skipGaps true rest
      else c :: rest

theorem skipGaps_length (inComment : Bool) (text : List Char) :
    (skipGaps inComment text).length ≤ text.length := by
  fun_induction skipGaps inComment text <;> simp_all <;> omega

def skipChar? (c : Char) : List Char → Option (List Char)
  | [] => none
  | d :: rest => if c = d then some rest else none

mutual

/-- The value at the start of a text.  `room` bounds the nesting. -/
def value? (room : Nat) (text : List Char) : Option (Item × List Char) :=
  match room, skipChar? '[' text, skipChar? '\x7b' text with
  | room + 1, some rest, _ =>
      (items? room rest).map (fun (items, left) => (.array items, left))
  | room + 1, none, some rest =>
      (fields? room (.table .inline []) true rest)
  | 0, some _, _ => none
  | 0, none, some _ => none
  | _, none, none =>
      match quoted? text with
      | some (quoted, left) => some (.text quoted, left)
      | none =>
          let (run, left) := scalarRun text
          (scalar? run).map (fun item => (item, left))
termination_by (room, text.length, 0)

def items? (room : Nat) (text : List Char) : Option (List Item × List Char) :=
  let start := skipGaps false text
  match skipChar? ']' start with
  | some left => some ([], left)
  | none =>
      match value? room start with
      | none => none
      | some (item, rest) =>
          let after := skipGaps false rest
          match skipChar? ',' after with
          | some more =>
              if _shorter : more.length < text.length then
                (items? room more).map (fun (items, left) => (item :: items, left))
              else none
          | none => (skipChar? ']' after).map (fun left => ([item], left))
termination_by (room, text.length, 1)
decreasing_by
  · have := skipGaps_length false text
    rcases Nat.lt_or_eq_of_le this with shorter | same
    · exact Prod.Lex.right _ (Prod.Lex.left _ _ shorter)
    · rw [same]
      exact Prod.Lex.right _ (Prod.Lex.right _ Nat.zero_lt_one)
  · exact Prod.Lex.right _ (Prod.Lex.left _ _ _shorter)

def fields? (room : Nat) (table : Item) (mayEnd : Bool) (text : List Char) :
    Option (Item × List Char) :=
  let start := skipGaps false text
  match (if mayEnd then skipChar? '\x7d' start else none) with
  | some left => some (table, left)
  | none =>
      match keyPath? start with
      | none => none
      | some ((path, key), rest) =>
          match skipChar? '=' rest with
          | none => none
          | some rest =>
              let start := rest.dropWhile isSpace
              if _shorter : start.length < text.length then
                match value? room start with
                | none => none
                | some (value, rest) =>
                    match assign path key value table with
                    | none => none
                    | some table =>
                        let after := skipGaps false rest
                        match skipChar? ',' after with
                        | some more =>
                            if _shorter : more.length < text.length then
                              fields? room table true more
                            else none
                        | none => (skipChar? '\x7d' after).map (fun left => (table, left))
              else none
termination_by (room, text.length, 1)
decreasing_by
  · exact Prod.Lex.right _ (Prod.Lex.left _ _ _shorter)
  · exact Prod.Lex.right _ (Prod.Lex.left _ _ _shorter)

end

/-! ### Lines -/

def nestingLimit : Nat := 80

def lineEnd? (text : List Char) : Option (List Char) :=
  let rest := text.dropWhile isSpace
  let rest :=
    match rest with
    | '#' :: comment => comment.dropWhile isTextChar
    | rest => rest
  match rest with
  | [] => some []
  | rest => lineBreak? rest

def header? (repeated : Bool) (text : List Char) : Option (Statement × List Char) := do
  let ((path, key), rest) ← keyPath? text
  let rest ← skipChar? ']' rest
  let rest ← if repeated then skipChar? ']' rest else some rest
  let rest ← lineEnd? rest
  return (.header repeated path key, rest)

def assignment? (text : List Char) : Option (Statement × List Char) := do
  let ((path, key), rest) ← keyPath? text
  let rest ← skipChar? '=' rest
  let (value, rest) ← value? nestingLimit (rest.dropWhile isSpace)
  let rest ← lineEnd? rest
  return (.assignment path key value, rest)

def line? (text : List Char) : Option (Option Statement × List Char) :=
  match lineEnd? text with
  | some rest => some (none, rest)
  | none =>
      let read :=
        match text.dropWhile isSpace with
        | '[' :: '[' :: rest => header? true rest
        | '[' :: rest => header? false rest
        | rest => assignment? rest
      read.map (fun (statement, rest) => (some statement, rest))

def statements? (text : List Char) : Option (List Statement) :=
  if text.isEmpty then some []
  else
    match line? text with
    | none => none
    | some (statement, rest) =>
        if _shorter : rest.length < text.length then
          (statements? rest).map (fun more => statement.toList ++ more)
        else none
termination_by text.length

/-- A text without the mark of its encoding. -/
def dropMark : List Char → List Char
  | [] => []
  | c :: rest => if c.toNat = 0xFEFF then rest else c :: rest

def ofText? (text : String) : Option Item :=
  (statements? (dropMark text.toList)).bind build?

end CrewCanvas.Toml
