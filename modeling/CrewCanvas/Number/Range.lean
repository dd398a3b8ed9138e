/-
The range of binary64: which decimals round to a finite number.
-/

import CrewCanvas.Number.Digits
import CrewCanvas.Number.Shortest

namespace CrewCanvas

namespace Decimal

/-- Half a step above the largest finite number: from here on decimals round to
infinity. -/
def infinityBound : Nat := Binary64.pow2 1024 - Binary64.pow2 970

/-- Whether a decimal rounds to a finite number.  Decimals of fewer than 300 or
more than 320 places are decided by their places alone. -/
def roundsToFinite (d : Decimal) : Bool :=
  let places : Int := (Nat.toDigits 10 d.digits).length + d.exponent
  if d.digits = 0 ∨ places < 300 then true
  else if 320 < places then false
  else d.digits * Binary64.pow10 d.exponent < infinityBound * Binary64.pow10 (-d.exponent)

def ofParts (whole fraction : List Char) (exponent : Int) : Decimal :=
  { digits := Digits.value (whole ++ fraction), exponent := exponent - fraction.length }

end Decimal

end CrewCanvas
