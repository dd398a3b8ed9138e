/-
TOML values without quotes or brackets: truth values, numbers, dates and times.
-/

import CrewCanvas.Number.Range
import CrewCanvas.Toml.Item

namespace CrewCanvas.Toml

/-- Digits of a base, with single underscores between digits. -/
def groupedDigits? (isDigit : Char → Bool) : List Char → Option (List Char)
  | [] => none
  | [c] => if isDigit c then some [c] else none
  | c :: '_' :: rest => if isDigit c then (groupedDigits? isDigit rest).map (c :: ·) else none
  | c :: rest => if isDigit c then (groupedDigits? isDigit rest).map (c :: ·) else none

def isRadixDigit (radix : Nat) (c : Char) : Bool :=
  (Digits.hexValue? c).any (fun digit => digit < radix)

def wholeDigits? (run : List Char) : Option (List Char) :=
  match groupedDigits? Char.isDigit run with
  | some ('0' :: _ :: _) => none
  | digits => digits

def splitSign : List Char → Bool × List Char
  | '-' :: rest => (true, rest)
  | '+' :: rest => (false, rest)
  | rest => (false, rest)

def splitMark (isMark : Char → Bool) (run : List Char) : List Char × Option (List Char) :=
  (run.takeWhile (fun c => !isMark c), (run.dropWhile (fun c => !isMark c)).tail?)

def integer? (run : List Char) : Option Int :=
  let inRadix (radix : Nat) (digits : List Char) : Option Int := do
    let digits ← groupedDigits? (isRadixDigit radix) digits
    let value ← Digits.radixValue? radix digits
    return value
  match run with
  | '0' :: 'x' :: digits => inRadix 16 digits
  | '0' :: 'o' :: digits => inRadix 8 digits
  | '0' :: 'b' :: digits => inRadix 2 digits
  | run => do
      let (negative, digits) := splitSign run
      let digits ← wholeDigits? digits
      let value : Int := Digits.value digits
      return if negative then -value else value

/-- The digits of a part that may be missing; a part that is there is not empty. -/
def optionalDigits? : Option (List Char) → Option (List Char)
  | none => some []
  | some run => groupedDigits? Char.isDigit run

def exponent? : Option (List Char) → Option Int
  | none => some 0
  | some run => do
      let (down, digits) := splitSign run
      let digits ← groupedDigits? Char.isDigit digits
      let value : Int := Digits.value digits
      return if down then -value else value

def real? (run : List Char) : Option Item := do
  let (_, unsigned) := splitSign run
  if unsigned = "inf".toList ∨ unsigned = "nan".toList then return .real true
  let (mantissa, exponent) := splitMark (fun c => c == 'e' || c == 'E') unsigned
  let (whole, fraction) := splitMark (· == '.') mantissa
  if fraction.isNone && exponent.isNone then none
  let whole ← wholeDigits? whole
  let fraction ← optionalDigits? fraction
  let exponent ← exponent? exponent
  return .real (Decimal.ofParts whole fraction exponent).roundsToFinite

/-! ### Dates and times -/

def field? (width low high : Nat) (run : List Char) : Option (Nat × List Char) :=
  let digits := run.take width
  let value := Digits.value digits
  if digits.length = width ∧ digits.all Char.isDigit ∧ low ≤ value ∧ value ≤ high then
    some (value, run.drop width)
  else none

def mark? (isMark : Char → Bool) : List Char → Option (List Char)
  | [] => none
  | c :: rest => if isMark c then some rest else none

def isLeapYear (year : Nat) : Bool :=
  year % 4 == 0 && (year % 100 != 0 || year % 400 == 0)

def daysOfMonth (year month : Nat) : Nat :=
  if month = 2 then if isLeapYear year then 29 else 28
  else if month = 4 ∨ month = 6 ∨ month = 9 ∨ month = 11 then 30
  else 31

def date? (run : List Char) : Option (List Char) := do
  let (year, run) ← field? 4 0 9999 run
  let run ← mark? (· == '-') run
  let (month, run) ← field? 2 1 12 run
  let run ← mark? (· == '-') run
  let (_, run) ← field? 2 1 (daysOfMonth year month) run
  return run

def seconds? (run : List Char) : Option (List Char) :=
  match mark? (· == ':') run with
  | none => some run
  | some run => do
      let (_, run) ← field? 2 0 60 run
      match mark? (· == '.') run with
      | none => return run
      | some run =>
          if (run.head?.any Char.isDigit) then return run.dropWhile Char.isDigit else none

def time? (run : List Char) : Option (List Char) := do
  let (_, run) ← field? 2 0 23 run
  let run ← mark? (· == ':') run
  let (_, run) ← field? 2 0 59 run
  seconds? run

def isOffset (run : List Char) : Bool :=
  match run with
  | [] => true
  | ['Z'] => true
  | ['z'] => true
  | run =>
      let rest? : Option (List Char) := do
        let run ← mark? (fun c => c == '+' || c == '-') run
        let (_, run) ← field? 2 0 23 run
        let run ← mark? (· == ':') run
        let (_, run) ← field? 2 0 59 run
        return run
      rest? = some []

def isMoment (run : List Char) : Bool :=
  match date? run with
  | some [] => true
  | some (mark :: rest) =>
      (mark == 'T' || mark == 't' || mark == ' ') && (time? rest).any isOffset
  | none => time? run = some []

def scalar? (run : List Char) : Option Item :=
  if run = "true".toList then some (.bool true)
  else if run = "false".toList then some (.bool false)
  else
    match integer? run with
    | some value => some (.integer value)
    | none =>
        match real? run with
        | some item => some item
        | none => if isMoment run then some .moment else none

def isScalarChar (c : Char) : Bool :=
  c.isAlphanum || c == '_' || c == '-' || c == '+' || c == '.' || c == ':'

/-- The run of characters at the start of a text.  One space may stand between a
date and a time. -/
def scalarRun (text : List Char) : List Char × List Char :=
  let run := text.takeWhile isScalarChar
  match date? run, text.dropWhile isScalarChar with
  | some [], ' ' :: c :: rest =>
      if c.isDigit then
        (run ++ ' ' :: (c :: rest).takeWhile isScalarChar, (c :: rest).dropWhile isScalarChar)
      else (run, ' ' :: c :: rest)
  | _, rest => (run, rest)

end CrewCanvas.Toml
