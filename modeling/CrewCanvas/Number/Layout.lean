/-
The written form of a binary64 number.

The digits are the shortest that read back.  How they are laid out is a record
of decisions: which exponents are written positionally and how the others look.
-/

import CrewCanvas.Number.Shortest

namespace CrewCanvas

/-- Where positional notation starts and ends, by the exponent of the leading digit. -/
structure NumberLayout where
  lowestPositional : Int
  firstScientific : Int
  integralMark : String
  exponentMark : String
  positiveSign : String
  nonFinite : String

namespace Decimal

def significant (d : Decimal) : List Char :=
  ((Nat.toDigits 10 d.digits).reverse.dropWhile (· == '0')).reverse

def leading (d : Decimal) : Int :=
  d.exponent + (Nat.toDigits 10 d.digits).length - 1

end Decimal

namespace NumberLayout

def positional (layout : NumberLayout) (digits : List Char) (leading : Int) : List Char :=
  if leading < 0 then
    '0' :: '.' :: (List.replicate ((-leading).toNat - 1) '0' ++ digits)
  else
    let whole := leading.toNat + 1
    if digits.length ≤ whole then
      digits ++ List.replicate (whole - digits.length) '0' ++ layout.integralMark.toList
    else digits.take whole ++ '.' :: digits.drop whole

def scientific (layout : NumberLayout) (digits : List Char) (leading : Int) : List Char :=
  let body :=
    match digits with
    | [] => []
    | [only] => [only]
    | first :: rest => first :: '.' :: rest
  let sign := if leading < 0 then ['-'] else layout.positiveSign.toList
  body ++ layout.exponentMark.toList ++ sign ++ Nat.toDigits 10 leading.natAbs

def magnitude (layout : NumberLayout) (x : Binary64) : List Char :=
  if x.isZero then layout.positional ['0'] 0
  else
    let decimal := x.shortest
    if layout.lowestPositional ≤ decimal.leading ∧ decimal.leading < layout.firstScientific then
      layout.positional decimal.significant decimal.leading
    else layout.scientific decimal.significant decimal.leading

def write (layout : NumberLayout) (x : Binary64) : List Char :=
  if x.isFinite then
    if x.isNegative then '-' :: layout.magnitude x else layout.magnitude x
  else layout.nonFinite.toList

end NumberLayout

end CrewCanvas
