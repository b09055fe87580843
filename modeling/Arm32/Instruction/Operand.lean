import Arm32.Registers
import Arm32.Shifter
import Arm32.Transfer

/-! Operand fields of the core instructions. Encodings that break a rule keep the offending bits, so
that they can be described and refused. -/

namespace Arm32

/-- Where the barrel shifter takes its amount from. -/
inductive ShiftAmount where
  | immediate (places : BitVec 5)
  /-- The bottom byte of a register. `reserved` is a bit that ought to be clear. -/
  | register (rs : Reg) (reserved : Bool)
  deriving DecidableEq, Repr

structure ShiftedRegister where
  rm : Reg
  kind : ShiftKind
  amount : ShiftAmount
  deriving DecidableEq, Repr

/-- The second operand of a data processing instruction. -/
inductive Operand2 where
  /-- A byte rotated right by twice the rotation field. -/
  | immediate (base : Byte) (rotate : BitVec 4)
  | register (operand : ShiftedRegister)
  deriving DecidableEq, Repr

/-- Where the new flags of the status register come from. -/
inductive FlagSource where
  /-- A rotated immediate, rotation field and byte together. -/
  | immediate (field : BitVec 12)
  | register (rm : Reg)
  deriving DecidableEq, Repr

inductive TransferOffset where
  | immediate (offset : BitVec 12)
  | register (operand : ShiftedRegister)
  deriving DecidableEq, Repr

inductive HalfwordOffset where
  | immediate (offset : BitVec 8)
  | register (rm : Reg)
  deriving DecidableEq, Repr

def ShiftAmount.isRegister : ShiftAmount → Bool
  | immediate _ => false
  | register _ _ => true

def ShiftedRegister.ofWord (word : Word) : ShiftedRegister :=
  { rm := word.extractLsb' 0 4
    kind := ShiftKind.ofCode (word.extractLsb' 5 2)
    amount :=
      if word.getLsbD 4 then .register (word.extractLsb' 8 4) (word.getLsbD 7)
      else .immediate (word.extractLsb' 7 5) }

def Operand2.ofWord (word : Word) : Operand2 :=
  if word.getLsbD 25 then .immediate (word.extractLsb' 0 8) (word.extractLsb' 8 4)
  else .register (ShiftedRegister.ofWord word)

/-- The bit that selects the immediate form here selects the register form of a transfer offset. -/
def TransferOffset.ofWord (word : Word) : TransferOffset :=
  if word.getLsbD 25 then .register (ShiftedRegister.ofWord word)
  else .immediate (word.extractLsb' 0 12)

def HalfwordOffset.ofWord (word : Word) : HalfwordOffset :=
  if word.getLsbD 22 then .immediate (word.extractLsb' 8 4 ++ word.extractLsb' 0 4)
  else .register (word.extractLsb' 0 4)

end Arm32
