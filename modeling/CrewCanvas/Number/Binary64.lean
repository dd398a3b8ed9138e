/-
Numbers of the binary64 interchange format, held as their bit pattern.

Every operation is exact arithmetic on natural numbers followed by one rounding
to the nearest word, ties to the even word.  No run-time floating point is
involved, so each value can be computed inside the logic.
-/

namespace CrewCanvas

/-- A binary64 number: sign, eleven exponent bits and 52 fraction bits. -/
structure Binary64 where
  bits : UInt64
  deriving DecidableEq

namespace Binary64

def hiddenBit : Nat := 0x10000000000000

def signBit : Nat := 0x8000000000000000

def infinityWord : Nat := 2047 * hiddenBit

/-- The bits without the sign.  The order of words is the order of magnitudes. -/
def word (x : Binary64) : Nat := x.bits.toNat % signBit

def isNegative (x : Binary64) : Bool := signBit ≤ x.bits.toNat

def ofWord (negative : Bool) (word : Nat) : Binary64 :=
  ⟨UInt64.ofNat (word + if negative then signBit else 0)⟩

def exponentField (x : Binary64) : Nat := x.word / hiddenBit

def fractionField (x : Binary64) : Nat := x.word % hiddenBit

def isFinite (x : Binary64) : Bool := x.word < infinityWord

def isNaN (x : Binary64) : Bool := infinityWord < x.word

def isZero (x : Binary64) : Bool := x.word == 0

def isInfinite (x : Binary64) : Bool := x.word == infinityWord

/-- A finite magnitude is the significand times two to the `power`. -/
def significand (x : Binary64) : Nat :=
  if x.exponentField = 0 then x.fractionField else hiddenBit + x.fractionField

def power (x : Binary64) : Int :=
  if x.exponentField = 0 then -1074 else (x.exponentField : Int) - 1075

/-- The natural number `2 ^ exponent`, one for negative exponents. -/
def pow2 (exponent : Int) : Nat := Nat.pow 2 exponent.toNat

def pow10 (exponent : Int) : Nat := Nat.pow 10 exponent.toNat

/-- The word nearest to `numerator / denominator`, ties to the even word.
Magnitudes beyond the largest finite one by half a step become infinity. -/
def nearestWord (numerator denominator : Nat) : Nat :=
  if numerator = 0 then 0
  else
    let guess : Int := (numerator.log2 : Int) - denominator.log2 - 52
    let below := numerator * pow2 (-guess) < hiddenBit * (denominator * pow2 guess)
    let exponent := max (if below then guess - 1 else guess) (-1074)
    let dividend := numerator * pow2 (-exponent)
    let divisor := denominator * pow2 exponent
    let quotient := dividend / divisor
    let remainder := dividend % divisor
    let roundsUp := divisor < 2 * remainder ∨ (2 * remainder = divisor ∧ quotient % 2 = 1)
    let rounded := if roundsUp then quotient + 1 else quotient
    min ((exponent + 1074).toNat * hiddenBit + rounded) infinityWord

def ofRatio (negative : Bool) (numerator denominator : Nat) : Binary64 :=
  ofWord negative (nearestWord numerator denominator)

def ofInt (n : Int) : Binary64 := ofRatio (n < 0) n.natAbs 1

def zero : Binary64 := ofWord false 0

instance : Inhabited Binary64 := ⟨zero⟩

def mulMagnitude (x y : Binary64) : Binary64 :=
  let power := x.power + y.power
  ofRatio false (x.significand * y.significand * pow2 power) (pow2 (-power))

def divMagnitude (x y : Binary64) : Binary64 :=
  let power := x.power - y.power
  ofRatio false (x.significand * pow2 power) (y.significand * pow2 (-power))

def negate (x : Binary64) : Binary64 := ofWord (!x.isNegative) x.word

/-- Numeric equality: the two zeros are equal and a NaN equals nothing. -/
def numEq (x y : Binary64) : Bool :=
  (!x.isNaN && x.bits == y.bits) || (x.isZero && y.isZero)

theorem numEq_self_iff (x : Binary64) : x.numEq x = true ↔ x.isNaN = false := by
  unfold numEq
  constructor
  · intro equal
    cases notNumber : x.isNaN with
    | false => rfl
    | true =>
        simp [notNumber] at equal
        simp [isZero, isNaN] at equal notNumber
        omega
  · intro isNumber
    simp [isNumber]

end Binary64

end CrewCanvas
