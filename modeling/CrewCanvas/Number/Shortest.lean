/-
The shortest decimal that reads back as a given binary64 number.

A magnitude is read back from every decimal inside its rounding interval.  The
grids of one, two, ... seventeen significant digits are tried in turn; on each,
only the two neighbours of the value can be the nearest point of the grid inside
the interval.
-/

import CrewCanvas.Number.Binary64

namespace CrewCanvas

structure Decimal where
  digits : Nat
  exponent : Int
  deriving DecidableEq

namespace Binary64

/-- A magnitude and the ends of its rounding interval, in quarters of the step
above it.  The step below a power of two is half as wide. -/
structure RoundingInterval where
  value : Nat
  lower : Nat
  upper : Nat
  power : Int
  closed : Bool

def roundingInterval (x : Binary64) : RoundingInterval :=
  let s := x.significand
  { value := 4 * s
    lower := if x.fractionField = 0 ∧ 1 < x.exponentField then 4 * s - 1 else 4 * s - 2
    upper := 4 * s + 2
    power := x.power - 2
    closed := s % 2 == 0 }

namespace RoundingInterval

/-- One unit of the interval is `unitOver / unitUnder` steps of the grid of
multiples of `10 ^ exponent`. -/
def unitOver (i : RoundingInterval) (exponent : Int) : Nat :=
  pow2 i.power * pow10 (-exponent)

def unitUnder (i : RoundingInterval) (exponent : Int) : Nat :=
  pow2 (-i.power) * pow10 exponent

def contains (i : RoundingInterval) (exponent : Int) (point : Nat) : Bool :=
  let scaled := point * i.unitUnder exponent
  let low := i.lower * i.unitOver exponent
  let high := i.upper * i.unitOver exponent
  if i.closed then low ≤ scaled && scaled ≤ high else low < scaled && scaled < high

/-- The nearest point of the grid inside the interval; of two equally near
points the even one. -/
def onGrid? (i : RoundingInterval) (exponent : Int) : Option Decimal :=
  let scaled := i.value * i.unitOver exponent
  let step := i.unitUnder exponent
  let point := scaled / step
  let past := scaled % step
  let down := i.contains exponent point
  let up := i.contains exponent (point + 1)
  let prefersUp := step < 2 * past ∨ (2 * past = step ∧ point % 2 = 1)
  if up ∧ (!down ∨ prefersUp) then some ⟨point + 1, exponent⟩
  else if down then some ⟨point, exponent⟩
  else none

def leadingExponent (i : RoundingInterval) : Int :=
  let atLeast (exponent : Int) : Bool :=
    i.unitUnder exponent ≤ i.value * i.unitOver exponent
  let guess := ((i.value.log2 : Int) + i.power) * 30103 / 100000
  if atLeast (guess + 1) then guess + 1
  else if atLeast guess then guess
  else guess - 1

end RoundingInterval

/-- The nearest of the shortest decimals that read back as a finite, nonzero
magnitude.  Seventeen digits always suffice. -/
def shortest (x : Binary64) : Decimal :=
  let interval := x.roundingInterval
  let leading := interval.leadingExponent
  let grids := (List.range 17).map (fun (places : Nat) => leading - (places : Int))
  (grids.findSome? interval.onGrid?).getD ⟨x.significand, 0⟩

end Binary64

end CrewCanvas
