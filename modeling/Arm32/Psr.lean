import Arm32.Adder
import Arm32.Condition

/-! The program status register. Programs only see its top four bits: negative, zero, carry, overflow. -/

namespace Arm32

structure Psr where
  bits : Word
  deriving DecidableEq, Repr

namespace Psr

/-- The bits that user mode may write. -/
def flagMask : Word := 0xf0000000

def negative (psr : Psr) : Bool := psr.bits.getLsbD 31
def zero (psr : Psr) : Bool := psr.bits.getLsbD 30
def carry (psr : Psr) : Bool := psr.bits.getLsbD 29
def overflow (psr : Psr) : Bool := psr.bits.getLsbD 28

def setNegative (psr : Psr) (flag : Bool) : Psr := { bits := Bits.setBit psr.bits 31 flag }
def setZero (psr : Psr) (flag : Bool) : Psr := { bits := Bits.setBit psr.bits 30 flag }
def setCarry (psr : Psr) (flag : Bool) : Psr := { bits := Bits.setBit psr.bits 29 flag }
def setOverflow (psr : Psr) (flag : Bool) : Psr := { bits := Bits.setBit psr.bits 28 flag }

/-- Flags of a multiply: sign and zero of the result. -/
def setResult (psr : Psr) (negative zero : Bool) : Psr :=
  (psr.setNegative negative).setZero zero

/-- Flags of a logical operation: the carry comes from the shifter, the overflow is kept. -/
def setLogical (psr : Psr) (result : Word) (carry : Bool) : Psr :=
  (psr.setResult result.msb (result == 0)).setCarry carry

/-- Flags of an addition or subtraction. -/
def setArithmetic (psr : Psr) (sum : Sum) : Psr :=
  ((psr.setResult sum.sign sum.zero).setCarry sum.carry).setOverflow sum.overflow

/-- Takes the four flags from `value` and keeps the rest. -/
def setFlags (psr : Psr) (value : Word) : Psr :=
  { bits := (psr.bits &&& ~~~flagMask) ||| (value &&& flagMask) }

/-- Whether an instruction with this condition executes. -/
def holds (psr : Psr) : Condition → Bool
  | .eq => psr.zero
  | .ne => !psr.zero
  | .cs => psr.carry
  | .cc => !psr.carry
  | .mi => psr.negative
  | .pl => !psr.negative
  | .vs => psr.overflow
  | .vc => !psr.overflow
  | .hi => psr.carry && !psr.zero
  | .ls => !psr.carry || psr.zero
  | .ge => psr.negative == psr.overflow
  | .lt => psr.negative != psr.overflow
  | .gt => !psr.zero && psr.negative == psr.overflow
  | .le => psr.zero || psr.negative != psr.overflow
  | .al => true
  | .nv => false

end Psr
end Arm32
