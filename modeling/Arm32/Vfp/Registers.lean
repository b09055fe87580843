import Arm32.Refusal

/-! The floating-point register file: 32 slots, seen as 32 singles or 16 doubles, and the system
registers. A double has its low word in the even slot. -/

namespace Arm32.Vfp

structure Registers where
  slots : Vector Word 32
  fpscr : Word
  /-- The identification register. -/
  fpsid : Word
  fpexc : Word
  deriving DecidableEq, Repr

namespace Slot

/-- A slot named by any number. Only the numbers up to 31 have one. -/
def number? (index : Nat) : Except Refusal Slot :=
  if bound : index < 32 then .ok (BitVec.ofNatLT index bound) else .error (.noSuchSlot index)

/-- The slots of the double that covers this slot. -/
def lowHalf (slot : Slot) : Slot := slot.extractLsb' 1 4 ++ 0#1
def highHalf (slot : Slot) : Slot := slot.extractLsb' 1 4 ++ 1#1

/-- The lowest slot of the register that covers this slot. -/
def aligned (slot : Slot) (precision : Precision) : Slot :=
  match precision with
  | .single => slot
  | .double => slot.lowHalf

/-- The first eight slots hold the scalars of short vectors. -/
def inScalarBank (slot : Slot) : Bool := slot.extractLsb' 3 2 == 0

end Slot

namespace Registers

def zero : Registers := { slots := Vector.replicate 32 0, fpscr := 0, fpsid := 0, fpexc := 0 }

def read (registers : Registers) (slot : Slot) : Word := registers.slots.get slot.toFin

def write (registers : Registers) (slot : Slot) (value : Word) : Registers :=
  { registers with slots := registers.slots.set slot.toNat value slot.isLt }

def readDouble (registers : Registers) (slot : Slot) : BitVec 64 :=
  registers.read slot.highHalf ++ registers.read slot.lowHalf

def writeDouble (registers : Registers) (slot : Slot) (value : BitVec 64) : Registers :=
  (registers.write slot.lowHalf (value.extractLsb' 0 32)).write slot.highHalf (value.extractLsb' 32 32)

/-- The double that covers any number, if both of its slots exist. The high word is asked for first. -/
def double? (registers : Registers) (index : Nat) : Except Refusal (BitVec 64) := do
  let high ← Slot.number? (index / 2 * 2 + 1)
  let low ← Slot.number? (index / 2 * 2)
  return registers.read high ++ registers.read low

/-- The low word is written first. -/
def setDouble? (registers : Registers) (index : Nat) (value : BitVec 64) : Except Refusal Registers := do
  let low ← Slot.number? (index / 2 * 2)
  let high ← Slot.number? (index / 2 * 2 + 1)
  return (registers.write low (value.extractLsb' 0 32)).write high (value.extractLsb' 32 32)

def system (registers : Registers) : SystemRegister → Except Refusal Word
  | .fpsid => .ok registers.fpsid
  | .fpscr => .ok registers.fpscr
  | .fpexc => .ok registers.fpexc
  | .unknown index => .error (.noSuchSystemRegister index)

/-- The identification register ignores writes. -/
def setSystem (registers : Registers) (register : SystemRegister) (value : Word) : Except Refusal Registers :=
  match register with
  | .fpsid => .ok registers
  | .fpscr => .ok { registers with fpscr := value }
  | .fpexc => .ok { registers with fpexc := value }
  | .unknown index => .error (.noSuchSystemRegister index)

/-- Elements of a short vector. -/
def vectorLength (registers : Registers) : Nat := (registers.fpscr.extractLsb' 16 3).toNat + 1

/-- Registers from one element to the next: two for the code `0b11` and one for any other. -/
def vectorStride (registers : Registers) : Nat :=
  if registers.fpscr.extractLsb' 20 2 = 0b11 then 2 else 1

/-- The comparison flags lie where the status register has its own. -/
def flagMask : Word := 0xf0000000

def compareFlags (registers : Registers) : Word := registers.fpscr &&& flagMask

def setCompareFlags (registers : Registers) (flags : Word) : Registers :=
  { registers with fpscr := (registers.fpscr &&& ~~~flagMask) ||| (flags &&& flagMask) }

end Registers

end Arm32.Vfp
