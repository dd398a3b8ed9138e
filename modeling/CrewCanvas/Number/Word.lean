/-
Words: integers of a fixed number of bits.
-/

namespace CrewCanvas.Word

def size (bits : Nat) : Nat := Nat.pow 2 bits

def fitsSigned (bits : Nat) (value : Int) : Bool :=
  -(size (bits - 1) : Int) ≤ value && value < size (bits - 1)

def fits (bits : Nat) (value : Int) : Bool :=
  -(size (bits - 1) : Int) ≤ value && value < size bits

end CrewCanvas.Word
