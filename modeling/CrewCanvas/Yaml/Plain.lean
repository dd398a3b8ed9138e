/-
Texts that a YAML reader would take for something else than a text.

Written without quotes they would be read as null, a truth value, an integer or
a finite number, or they are digits behind a leading zero.
-/

import CrewCanvas.Number.Range
import CrewCanvas.Number.Word

namespace CrewCanvas.Yaml

def nullTexts : List String := ["", "~", "null", "Null", "NULL"]

def boolTexts : List String := ["true", "True", "TRUE", "false", "False", "FALSE"]

def infinityTexts : List String := [".inf", ".Inf", ".INF"]

def nanTexts : List String := [".nan", ".NaN", ".NAN"]

def magnitude? : List Char → Option Nat
  | '0' :: 'x' :: digits => Digits.radixValue? 16 digits
  | '0' :: 'o' :: digits => Digits.radixValue? 8 digits
  | '0' :: 'b' :: digits => Digits.radixValue? 2 digits
  | digits => Digits.radixValue? 10 digits

def isInteger (text : List Char) : Bool :=
  match text with
  | '-' :: digits => (magnitude? digits).any (fun value => Word.fits 128 (-value))
  | '+' :: digits => (magnitude? digits).any (fun value => Word.fits 128 value)
  | digits => (magnitude? digits).any (fun value => Word.fits 128 value)

/-- Two or more digits that start with a zero, behind any sign. -/
def isZeroPadded (text : List Char) : Bool :=
  let digits :=
    match text with
    | '-' :: rest => rest
    | '+' :: rest => rest
    | rest => rest
  match digits with
  | '0' :: second :: rest => (second :: rest).all Char.isDigit
  | _ => false

def decimalParts? (text : List Char) : Option (List Char × List Char × Int) :=
  let whole := text.takeWhile Char.isDigit
  let afterWhole := text.dropWhile Char.isDigit
  let (fraction, afterFraction) :=
    match afterWhole with
    | '.' :: rest => (rest.takeWhile Char.isDigit, rest.dropWhile Char.isDigit)
    | rest => ([], rest)
  if whole.isEmpty && fraction.isEmpty then none
  else
    match afterFraction with
    | [] => some (whole, fraction, 0)
    | mark :: rest =>
        if mark = 'e' ∨ mark = 'E' then
          let (down, digits) :=
            match rest with
            | '-' :: digits => (true, digits)
            | '+' :: digits => (false, digits)
            | digits => (false, digits)
          if digits.isEmpty || !digits.all Char.isDigit then none
          else
            let value : Int := Digits.value digits
            some (whole, fraction, if down then -value else value)
        else none

def isFiniteReal (unsigned : List Char) : Bool :=
  match decimalParts? unsigned with
  | none => false
  | some (whole, fraction, exponent) =>
      (Decimal.ofParts whole fraction exponent).roundsToFinite

def isReal (text : List Char) : Bool :=
  match text with
  | '-' :: rest => isFiniteReal rest || infinityTexts.contains (String.ofList rest)
  | '+' :: rest => isFiniteReal rest || infinityTexts.contains (String.ofList rest)
  | rest =>
      isFiniteReal rest || infinityTexts.contains (String.ofList rest) ||
        nanTexts.contains (String.ofList rest)

/-- Whether a text without quotes would not be read as that text. -/
def isAmbiguous (text : String) : Bool :=
  nullTexts.contains text || boolTexts.contains text || isZeroPadded text.toList ||
    isInteger text.toList || isReal text.toList

end CrewCanvas.Yaml
