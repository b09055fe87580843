import Arm32.Disassembly.Vfp
import Arm32.Instruction.Basic

/-! The encodings that break a rule of the architecture. An instruction is forbidden when execution refuses it
in every state, whatever the registers and the memory hold. A branch is not among them, since where it leads
depends on where it stands. -/

namespace Arm32

def ShiftAmount.isForbidden : ShiftAmount → Bool
  | immediate _ => false
  | register rs reserved => rs == Reg.pc || reserved

def ShiftedRegister.isForbidden (operand : ShiftedRegister) : Bool := operand.amount.isForbidden

def Operand2.isForbidden : Operand2 → Bool
  | immediate _ _ => false
  | register operand => operand.isForbidden

/-- A test sets the flags; anything else may not set them along with the program counter. -/
def DataProcessing.isForbidden (fields : DataProcessing) : Bool :=
  (if fields.op.isTest then !fields.setFlags else fields.setFlags && fields.rd == Reg.pc) ||
    fields.operand.isForbidden

def PsrOp.isForbidden : PsrOp → Bool
  | read rd => rd == Reg.pc
  | write rm => rm == Reg.pc
  | writeFlags (.immediate _) => false
  | writeFlags (.register rm) => rm == Reg.pc
  | undefined => true

def Multiply.isForbidden (fields : Multiply) : Bool :=
  fields.rm == fields.rd || [fields.rd, fields.rn, fields.rs, fields.rm].contains Reg.pc ||
    (fields.op == .mul && fields.rn != 0)

def MultiplyLong.isForbidden (fields : MultiplyLong) : Bool :=
  fields.rm == fields.rdLow || fields.rm == fields.rdHigh || fields.rdLow == fields.rdHigh ||
    [fields.rdHigh, fields.rdLow, fields.rs, fields.rm].contains Reg.pc

def Swap.isForbidden (fields : Swap) : Bool := [fields.rn, fields.rd, fields.rm].contains Reg.pc

namespace Addressing

/-- Whether the base register ends up with another value. -/
def updatesBase (mode : Addressing) : Bool := mode.indexing == .post || mode.writeBack

/-- Post-indexing updates the base without being asked to, and nothing updates the program counter. -/
def isForbidden (mode : Addressing) (rn : Reg) : Bool :=
  (mode.indexing == .post && mode.writeBack) || (mode.updatesBase && rn == Reg.pc)

end Addressing

def TransferOffset.isForbidden : TransferOffset → Bool
  | immediate _ => false
  | register operand => operand.amount.isRegister || operand.rm == Reg.pc

def HalfwordOffset.isForbidden : HalfwordOffset → Bool
  | immediate _ => false
  | register rm => rm == Reg.pc

def SingleTransfer.isForbidden (fields : SingleTransfer) : Bool :=
  fields.offset.isForbidden || fields.mode.isForbidden fields.rn

/-- Signed values are only loaded, since storing them is the same as storing unsigned ones. -/
def HalfwordTransfer.isForbidden (fields : HalfwordTransfer) : Bool :=
  fields.kind == .swap || fields.offset.isForbidden || fields.mode.isForbidden fields.rn ||
    (fields.transfer == .store && fields.kind.isSigned)

def BlockTransfer.isForbidden (fields : BlockTransfer) : Bool :=
  fields.privileged || fields.rn == Reg.pc ||
    (fields.transfer == .store && (fields.lists Reg.pc || (fields.mode.writeBack && fields.lists fields.rn)))

namespace Vfp

def DataProcessing.isForbidden (fields : DataProcessing) : Bool :=
  match fields.op with
  | .undefined _ | .extension (.undefined _) => true
  | _ => false

def LoadStore.isForbidden (fields : LoadStore) : Bool :=
  match fields.mode with
  | .positiveOffset | .negativeOffset => false
  | .unindexed => 32 < fields.firstSlot + fields.offset.toNat
  | .increment | .decrement => 32 < fields.firstSlot + fields.offset.toNat || fields.rn == Reg.pc
  | .undefined _ => true

def RegisterTransfer.isForbidden (fields : RegisterTransfer) : Bool :=
  if fields.isFlagMove then fields.system != .fpscr
  else
    fields.rd == Reg.pc || fields.isUnknownSystem ||
      match fields.op with
      | .undefined _ => true
      | _ => false

def Instruction.isForbidden : Instruction → Bool
  | dataProcessing fields => fields.isForbidden
  | loadStore fields => fields.isForbidden
  | registerTransfer fields => fields.isForbidden

end Vfp

namespace Instruction

def isForbidden : Instruction → Bool
  | dataProcessing fields => fields.isForbidden
  | psrTransfer _ op => op.isForbidden
  | multiply fields => fields.isForbidden
  | multiplyLong fields => fields.isForbidden
  | countLeadingZeros rd rm => rd == Reg.pc || rm == Reg.pc
  | swap fields => fields.isForbidden
  | halfwordTransfer fields => fields.isForbidden
  | singleTransfer fields => fields.isForbidden
  | blockTransfer fields => fields.isForbidden
  | branch _ _ => false
  | undefined => true
  | coprocessor => true
  | vfp instruction => instruction.isForbidden

/-- A single or halfword transfer that updates its base, which is the program counter. -/
def updatesProgramCounterBase : Instruction → Bool
  | singleTransfer fields => fields.mode.updatesBase && fields.rn == Reg.pc
  | halfwordTransfer fields => fields.mode.updatesBase && fields.rn == Reg.pc
  | _ => false

end Instruction

end Arm32
