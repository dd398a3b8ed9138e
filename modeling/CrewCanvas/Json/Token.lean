/-
The tokens of a JSON text.

Reading never fails: a place where no token starts becomes the token `bad`, and
nothing after it is read.  A text that holds one half of a surrogate pair is a
token too, without a value, because it may still be skipped.
-/

import CrewCanvas.Json.Numeral

namespace CrewCanvas.Json

inductive Token
  | openList
  | closeList
  | openRecord
  | closeRecord
  | comma
  | colon
  | null
  | bool (value : Bool)
  | number (value : Option Number)
  | text (value : Option String)
  | bad

namespace Token

def isSpace (c : Char) : Bool :=
  c == ' ' || c == '\n' || c == '\t' || c == '\r'

def hexUnit? (a b c d : Char) : Option Nat := do
  let a ← Digits.hexValue? a
  let b ← Digits.hexValue? b
  let c ← Digits.hexValue? c
  let d ← Digits.hexValue? d
  return ((a * 16 + b) * 16 + c) * 16 + d

/-- A piece of a quoted text: a character, or one 16-bit unit of a pair. -/
inductive Piece
  | char (c : Char)
  | unit (value : Nat)

def shortEscape? (c : Char) : Option Char :=
  if c = '"' then some '"'
  else if c = '\\' then some '\\'
  else if c = '/' then some '/'
  else if c = 'b' then some (Char.ofNat 8)
  else if c = 'f' then some (Char.ofNat 12)
  else if c = 'n' then some '\n'
  else if c = 'r' then some '\r'
  else if c = 't' then some '\t'
  else none

def pieces? : List Char → Option (List Piece × List Char)
  | [] => none
  | '"' :: rest => some ([], rest)
  | '\\' :: 'u' :: a :: b :: c :: d :: rest => do
      let unit ← hexUnit? a b c d
      let (more, rest) ← pieces? rest
      return (.unit unit :: more, rest)
  | '\\' :: letter :: rest => do
      let c ← shortEscape? letter
      let (more, rest) ← pieces? rest
      return (.char c :: more, rest)
  | c :: rest =>
      if c = '\\' ∨ c.toNat < 32 then none
      else do
        let (more, rest) ← pieces? rest
        return (.char c :: more, rest)

/-- Joins pairs of surrogate units; one half alone has no value. -/
def joinPieces : List Piece → Option (List Char)
  | [] => some []
  | .char c :: rest => (joinPieces rest).map (c :: ·)
  | .unit high :: .unit low :: rest =>
      if 0xD800 ≤ high ∧ high < 0xDC00 then
        if 0xDC00 ≤ low ∧ low < 0xE000 then
          (joinPieces rest).map
            (Char.ofNat (0x10000 + (high - 0xD800) * 0x400 + (low - 0xDC00)) :: ·)
        else none
      else if 0xDC00 ≤ high ∧ high < 0xE000 then none
      else (joinPieces (.unit low :: rest)).map (Char.ofNat high :: ·)
  | .unit only :: rest =>
      if 0xD800 ≤ only ∧ only < 0xE000 then none
      else (joinPieces rest).map (Char.ofNat only :: ·)

def digits (input : List Char) : List Char × List Char :=
  (input.takeWhile Char.isDigit, input.dropWhile Char.isDigit)

def whole? (input : List Char) : Option (List Char × List Char) :=
  match digits input with
  | ([], _) => none
  | (first :: second :: more, rest) =>
      if first = '0' then none else some (first :: second :: more, rest)
  | ([only], rest) => some ([only], rest)

def fraction? : List Char → Option (Option (List Char) × List Char)
  | '.' :: input =>
      match digits input with
      | ([], _) => none
      | (first :: more, rest) => some (some (first :: more), rest)
  | input => some (none, input)

def exponentSign : List Char → Bool × List Char
  | '-' :: input => (true, input)
  | '+' :: input => (false, input)
  | input => (false, input)

def exponent? : List Char → Option (Option (Bool × List Char) × List Char)
  | [] => some (none, [])
  | c :: input =>
      if c = 'e' ∨ c = 'E' then
        let (down, input) := exponentSign input
        match digits input with
        | ([], _) => none
        | (first :: more, rest) => some (some (down, first :: more), rest)
      else some (none, c :: input)

def minusSign : List Char → Bool × List Char
  | '-' :: input => (true, input)
  | input => (false, input)

def numeral? (input : List Char) : Option (Numeral × List Char) := do
  let (whole, afterWhole) ← whole? (minusSign input).2
  let (fraction, afterFraction) ← fraction? afterWhole
  let (exponent, rest) ← exponent? afterFraction
  return (⟨(minusSign input).1, whole, fraction, exponent⟩, rest)

def first : List Char → Token × List Char
  | '[' :: rest => (.openList, rest)
  | ']' :: rest => (.closeList, rest)
  | '{' :: rest => (.openRecord, rest)
  | '}' :: rest => (.closeRecord, rest)
  | ',' :: rest => (.comma, rest)
  | ':' :: rest => (.colon, rest)
  | 'n' :: 'u' :: 'l' :: 'l' :: rest => (.null, rest)
  | 't' :: 'r' :: 'u' :: 'e' :: rest => (.bool true, rest)
  | 'f' :: 'a' :: 'l' :: 's' :: 'e' :: rest => (.bool false, rest)
  | '"' :: rest =>
      match pieces? rest with
      | none => (.bad, [])
      | some (pieces, rest) => (.text ((joinPieces pieces).map String.ofList), rest)
  | input =>
      match numeral? input with
      | none => (.bad, [])
      | some (numeral, rest) => (.number numeral.value?, rest)

/-! ### Each step reads at least one character -/

theorem pieces?_shorter {input : List Char} {pieces : List Piece} {rest : List Char}
    (read : pieces? input = some (pieces, rest)) : rest.length < input.length := by
  fun_induction pieces? input generalizing pieces rest <;>
    simp_all [Option.bind_eq_some_iff] <;> grind

theorem digits_shorter {input more rest : List Char} {first : Char}
    (read : digits input = (first :: more, rest)) : rest.length < input.length := by
  have parts := List.takeWhile_append_dropWhile (p := Char.isDigit) (l := input)
  simp only [digits, Prod.mk.injEq] at read
  rw [read.1, read.2] at parts
  rw [← parts, List.length_append, List.length_cons]
  omega

theorem whole?_shorter {input whole rest : List Char}
    (read : whole? input = some (whole, rest)) : rest.length < input.length := by
  unfold whole? at read
  split at read
  · simp at read
  · next split =>
      split at read
      · simp at read
      · simp only [Option.some.injEq, Prod.mk.injEq] at read
        rw [← read.2]
        exact digits_shorter split
  · next split =>
      simp only [Option.some.injEq, Prod.mk.injEq] at read
      rw [← read.2]
      exact digits_shorter split

theorem fraction?_length {input rest : List Char} {fraction : Option (List Char)}
    (read : fraction? input = some (fraction, rest)) : rest.length ≤ input.length := by
  unfold fraction? at read
  split at read
  · split at read
    · simp at read
    · next split =>
        simp only [Option.some.injEq, Prod.mk.injEq] at read
        rw [← read.2]
        have := digits_shorter split
        simp
        omega
  · simp only [Option.some.injEq, Prod.mk.injEq] at read
    simp [← read.2]

theorem exponentSign_length (input : List Char) :
    (exponentSign input).2.length ≤ input.length := by
  unfold exponentSign
  split <;> simp

theorem minusSign_length (input : List Char) :
    (minusSign input).2.length ≤ input.length := by
  unfold minusSign
  split <;> simp

theorem exponent?_length {input rest : List Char} {exponent : Option (Bool × List Char)}
    (read : exponent? input = some (exponent, rest)) : rest.length ≤ input.length := by
  cases input with
  | nil =>
      simp only [exponent?, Option.some.injEq, Prod.mk.injEq] at read
      simp [← read.2]
  | cons c input =>
      simp only [exponent?] at read
      split at read
      · split at read
        · simp at read
        · next split =>
            simp only [Option.some.injEq, Prod.mk.injEq] at read
            rw [← read.2]
            have := digits_shorter split
            have := exponentSign_length input
            simp only [List.length_cons]
            omega
      · simp only [Option.some.injEq, Prod.mk.injEq] at read
        simp [← read.2]

theorem numeral?_shorter {input rest : List Char} {numeral : Numeral}
    (read : numeral? input = some (numeral, rest)) : rest.length < input.length := by
  simp only [numeral?, Option.bind_eq_bind, Option.pure_def, Option.bind_eq_some_iff,
    Option.some.injEq, Prod.mk.injEq, Prod.exists] at read
  obtain ⟨whole, afterWhole, readWhole, fraction, afterFraction, readFraction, exponent,
    afterExponent, readExponent, _, same⟩ := read
  have := minusSign_length input
  have := whole?_shorter readWhole
  have := fraction?_length readFraction
  have := exponent?_length readExponent
  subst same
  omega

theorem first_shorter (c : Char) (input : List Char) :
    (first (c :: input)).2.length < (c :: input).length := by
  unfold first
  split
  case h_10 rest same =>
    simp only [List.cons.injEq] at same
    split
    · simp
    · next read =>
        have := pieces?_shorter read
        simp only [same.2, List.length_cons]
        omega
  case h_11 =>
    split
    · simp
    · next read => exact numeral?_shorter read
  all_goals
    next same =>
      simp only [List.cons.injEq] at same
      simp only [same.2, List.length_cons]
      omega

/-- The tokens of a text, up to the first place where none starts. -/
def ofChars (input : List Char) : List Token :=
  match _skipped : input.dropWhile isSpace with
  | [] => []
  | c :: rest => (first (c :: rest)).1 :: ofChars (first (c :: rest)).2
termination_by input.length
decreasing_by
  have := first_shorter c rest
  have := (List.dropWhile_suffix isSpace (l := input)).length_le
  rw [_skipped] at this
  omega

end Token

end CrewCanvas.Json
