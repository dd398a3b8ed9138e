/-
Digits and the numbers they spell.
-/

namespace CrewCanvas.Digits

def digitValue (c : Char) : Nat := c.toNat - '0'.toNat

def value (digits : List Char) : Nat :=
  digits.foldl (fun number c => 10 * number + digitValue c) 0

def hexValue? (c : Char) : Option Nat :=
  if '0' ≤ c ∧ c ≤ '9' then some (c.toNat - '0'.toNat)
  else if 'a' ≤ c ∧ c ≤ 'f' then some (c.toNat - 'a'.toNat + 10)
  else if 'A' ≤ c ∧ c ≤ 'F' then some (c.toNat - 'A'.toNat + 10)
  else none

theorem hexValue?_digitChar : ∀ digit, digit < 16 →
    hexValue? (Nat.digitChar digit) = some digit := by decide

def push? (radix : Nat) (number : Option Nat) (c : Char) : Option Nat := do
  let number ← number
  let digit ← hexValue? c
  if digit < radix then some (radix * number + digit) else none

def radixValue? (radix : Nat) (digits : List Char) : Option Nat :=
  if digits.isEmpty then none else digits.foldl (push? radix) (some 0)

end CrewCanvas.Digits
