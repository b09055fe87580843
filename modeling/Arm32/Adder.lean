import Arm32.Bits

/-! Thirty-two bit addition with the carry and overflow of the data path. Subtraction is addition of
the complement with a carry in, so a clear carry is a borrow. `Adder.add` takes the carry out of the
sum of the upper halves; `Adder.ripple` passes it from bit to bit and serves as the reference. -/

namespace Arm32

/-- A sum with the four condition flags it gives. -/
structure Sum where
  result : Word
  carry : Bool
  overflow : Bool
  sign : Bool
  zero : Bool
  deriving DecidableEq, Repr

namespace Adder

/-- A sum whose sign and zero are still to be read off. -/
structure Carried where
  result : Word
  carry : Bool
  overflow : Bool

def Carried.withFlags (sum : Carried) : Sum :=
  { result := sum.result, carry := sum.carry, overflow := sum.overflow,
    sign := sum.result.msb, zero := sum.result == 0 }

/-- Half of `first + second`, rounded down: the upper 31 bits of both and the carry out of bit 0. -/
def halfSum (first second : Word) : Nat :=
  (first >>> 1).toNat + (second >>> 1).toNat + (first &&& second &&& 1).toNat

/-- Two operands without a carry in. The carry out is the top bit of the half sum. -/
def pair (first second : Word) : Carried :=
  let result := first + second
  { result
    carry := (halfSum first second).testBit 31
    overflow := (!first.msb && !second.msb && result.msb) || (first.msb && second.msb && !result.msb) }

/-- `first + second + carryIn`. The carry in is added as a second step, of which at most one can
carry and at most one can overflow. -/
def add (first second : Word) (carryIn : Bool) : Sum :=
  let sum := pair first second
  if carryIn then
    let step := pair sum.result 1
    Carried.withFlags
      { result := step.result, carry := sum.carry ^^ step.carry, overflow := sum.overflow ^^ step.overflow }
  else sum.withFlags

/-- What a ripple of full adders has produced so far. -/
structure Ripple where
  result : Word
  carry : Bool
  /-- The carry that went into the top bit, once it has been reached. -/
  intoTop : Bool

def fullAdder (first second : Word) (state : Ripple) (index : Nat) : Ripple :=
  let a := first.getLsbD index
  let b := second.getLsbD index
  { result := Bits.setBit state.result index (a ^^ b ^^ state.carry)
    carry := (a && b) || (a && state.carry) || (b && state.carry)
    intoTop := if index = 31 then state.carry else state.intoTop }

/-- Bit-serial addition. Overflow is a carry into the top bit that differs from the carry out of it. -/
def ripple (first second : Word) (carryIn : Bool) : Sum :=
  let last := (List.range 32).foldl (fullAdder first second) { result := 0, carry := carryIn, intoTop := false }
  Carried.withFlags { result := last.result, carry := last.carry, overflow := last.intoTop != last.carry }

end Adder
end Arm32
