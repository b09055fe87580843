import Arm32.Instruction.Basic
import Arm32.Vfp.Description

/-! Instructions as trees of named fields. -/

namespace Arm32

def ShiftAmount.describe : ShiftAmount → Description
  | immediate places => .tagged "Immediate" (.ofBits places)
  | register rs reserved => .variant "Register" [("rs", .ofBits rs), ("reserved_bit", .flag reserved)]

def ShiftedRegister.describe (operand : ShiftedRegister) : Description :=
  .record "ShiftedRegister"
    [("rm", .ofBits operand.rm), ("shift_kind", .choice operand.kind.name), ("amount", operand.amount.describe)]

def Operand2.describe : Operand2 → Description
  | immediate base rotate => .variant "Immediate" [("base", .ofBits base), ("rotate", .ofBits rotate)]
  | register operand => .tagged "Register" operand.describe

def FlagSource.describe : FlagSource → Description
  | immediate field => .tagged "Immediate" (.ofBits field)
  | register rm => .tagged "Register" (.ofBits rm)

def PsrOp.describe : PsrOp → Description
  | read rd => .variant "Mrs" [("rd", .ofBits rd)]
  | write rm => .variant "Msr" [("rm", .ofBits rm)]
  | writeFlags source => .variant "MsrFlags" [("operand", source.describe)]
  | undefined => .choice "Undefined"

def HalfwordOffset.describe : HalfwordOffset → Description
  | immediate offset => .variant "Immediate" [("offset", .ofBits offset)]
  | register rm => .variant "Register" [("rm", .ofBits rm)]

def TransferOffset.describe : TransferOffset → Description
  | immediate offset => .variant "Immediate" [("offset", .ofBits offset)]
  | register operand => .tagged "Register" operand.describe

def DataProcessing.describe (fields : DataProcessing) : Description :=
  .variant "DataProcessing"
    [("alu_instruction", .choice fields.op.name), ("set_conditions", .flag fields.setFlags),
      ("rn", .ofBits fields.rn), ("destination", .ofBits fields.rd), ("op2", fields.operand.describe)]

def Multiply.describe (fields : Multiply) : Description :=
  .variant "Multiply"
    [("variant", .choice fields.op.name), ("set_conditions", .flag fields.setFlags), ("rd", .ofBits fields.rd),
      ("rn", .ofBits fields.rn), ("rs", .ofBits fields.rs), ("rm", .ofBits fields.rm)]

def MultiplyLong.describe (fields : MultiplyLong) : Description :=
  .variant "MultiplyLong"
    [("variant", .choice fields.op.name), ("set_conditions", .flag fields.setFlags),
      ("rd_hi", .ofBits fields.rdHigh), ("rd_lo", .ofBits fields.rdLow), ("rs", .ofBits fields.rs),
      ("rm", .ofBits fields.rm)]

def Swap.describe (fields : Swap) : Description :=
  .variant "SingleDataSwap"
    [("quantity", .choice fields.quantity.name), ("rn", .ofBits fields.rn), ("rd", .ofBits fields.rd),
      ("rm", .ofBits fields.rm)]

def HalfwordTransfer.describe (fields : HalfwordTransfer) : Description :=
  .variant "HalfwordDataTransfer"
    [("indexing", .choice fields.mode.indexing.name), ("offsetting", .choice fields.mode.direction.name),
      ("write_back", .flag fields.mode.writeBack), ("load_store", .choice fields.transfer.name),
      ("transfer_kind", .choice fields.kind.name), ("rn", .ofBits fields.rn), ("rd", .ofBits fields.rd),
      ("offset", fields.offset.describe)]

def SingleTransfer.describe (fields : SingleTransfer) : Description :=
  .variant "SingleDataTransfer"
    [("indexing", .choice fields.mode.indexing.name), ("offsetting", .choice fields.mode.direction.name),
      ("quantity", .choice fields.quantity.name), ("write_back", .flag fields.mode.writeBack),
      ("load_store", .choice fields.transfer.name), ("rn", .ofBits fields.rn), ("rd", .ofBits fields.rd),
      ("offset", fields.offset.describe)]

def BlockTransfer.describe (fields : BlockTransfer) : Description :=
  .variant "BlockDataTransfer"
    [("indexing", .choice fields.mode.indexing.name), ("offsetting", .choice fields.mode.direction.name),
      ("load_psr", .flag fields.privileged), ("write_back", .flag fields.mode.writeBack),
      ("load_store", .choice fields.transfer.name), ("rn", .ofBits fields.rn),
      ("register_list", .ofBits fields.list)]

def Instruction.describe : Instruction → Description
  | dataProcessing fields => fields.describe
  | psrTransfer saved op => .variant "PsrTransfer" [("spsr", .flag saved), ("kind", op.describe)]
  | multiply fields => fields.describe
  | multiplyLong fields => fields.describe
  | countLeadingZeros rd rm => .variant "CountLeadingZeros" [("rd", .ofBits rd), ("rm", .ofBits rm)]
  | swap fields => fields.describe
  | halfwordTransfer fields => fields.describe
  | singleTransfer fields => fields.describe
  | blockTransfer fields => fields.describe
  | branch link offset => .variant "Branch" [("link", .flag link), ("offset", .number offset.toInt)]
  | undefined => .choice "Undefined"
  | coprocessor => .choice "Coprocessor"
  | vfp instruction => .tagged "Vfp" instruction.describe

end Arm32
