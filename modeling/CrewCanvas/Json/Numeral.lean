/-
Reading JSON numbers.

A numeral keeps its digits apart from their value.  The value of an integer that
fits 64 bits is exact.  Any other value is the 64-bit significand, which stops
growing when the next digit would overflow it, scaled by one power of ten with
one rounding for each step; the result is close to, but not always, the nearest
binary64 number.
-/

import CrewCanvas.Json.Value
import CrewCanvas.Number.Digits
import CrewCanvas.Number.Word

namespace CrewCanvas.Json

structure Numeral where
  negative : Bool
  whole : List Char
  fraction : Option (List Char)
  /-- Whether the exponent is negative, and its digits. -/
  exponent : Option (Bool × List Char)

namespace Numeral

/-- Appends digits to a significand while it fits 64 bits.  Answers the
significand, the number of digits taken and the number left over. -/
def accumulate (significand taken : Nat) : List Char → Nat × Nat × Nat
  | [] => (significand, taken, 0)
  | c :: rest =>
      let next := 10 * significand + Digits.digitValue c
      if Word.fits 64 next then accumulate next (taken + 1) rest
      else (significand, taken, rest.length + 1)

def scaleOnce (significand : Binary64) (exponent : Int) : Binary64 :=
  let power := Binary64.ofRatio false (Binary64.pow10 exponent.natAbs) 1
  if 0 ≤ exponent then significand.mulMagnitude power else significand.divMagnitude power

/-- Scales by any power of ten; nothing is answered where the value is too large. -/
def scale (significand : Binary64) (exponent : Int) : Option Binary64 :=
  if exponent.natAbs ≤ 308 then
    let scaled := scaleOnce significand exponent
    if scaled.isInfinite then none else some scaled
  else if significand.isZero then some significand
  else if 0 ≤ exponent then none
  else scale (scaleOnce significand (-308)) (exponent + 308)
termination_by exponent.natAbs

def signed (negative : Bool) (magnitude : Binary64) : Binary64 :=
  if negative then magnitude.negate else magnitude

/-- The exponent a numeral adds, or nothing where it does not fit 32 bits. -/
def exponentValue? (digits : List Char) : Option Nat :=
  let value := Digits.value digits
  if Word.fitsSigned 32 value then some value else none

def realValue? (n : Numeral) : Option Binary64 :=
  let (leading, _, skipped) := accumulate 0 0 n.whole
  let (significand, places, _) := accumulate leading 0 (n.fraction.getD [])
  let start : Int := (skipped : Int) - places
  let magnitude := Binary64.ofInt significand
  match n.exponent with
  | none => (scale magnitude start).map (signed n.negative)
  | some (down, digits) =>
      match exponentValue? digits with
      | none =>
          if significand ≠ 0 ∧ !down then none else some (signed n.negative Binary64.zero)
      | some value =>
          (scale magnitude (if down then start - value else start + value)).map
            (signed n.negative)

/-- The value of a numeral.  Negative zero and integers beyond 64 bits are
binary64 numbers. -/
def value? (n : Numeral) : Option Number :=
  if n.fraction.isNone && n.exponent.isNone then
    let magnitude : Int := Digits.value n.whole
    if n.negative then
      if magnitude ≠ 0 ∧ Word.fits 64 (-magnitude) then some (.int (-magnitude))
      else n.realValue?.map .real
    else if Word.fits 64 magnitude then some (.int magnitude)
    else n.realValue?.map .real
  else n.realValue?.map .real

end Numeral

end CrewCanvas.Json
