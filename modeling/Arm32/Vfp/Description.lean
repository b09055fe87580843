import Arm32.Description
import Arm32.Vfp.Instruction

/-! Floating-point instructions as trees of named fields. -/

namespace Arm32.Vfp

/-- Operation names carry a capital in a tree. -/
def ArithmeticOp.name (op : ArithmeticOp) : String := op.mnemonic.capitalize
def UnaryOp.name (op : UnaryOp) : String := op.mnemonic.capitalize
def ScalarOp.name (op : ScalarOp) : String := op.mnemonic.capitalize

def ExtensionOp.describe : ExtensionOp → Description
  | unary op => .choice op.name
  | scalar op => .choice op.name
  | undefined selector => .tagged "Undefined" (.number selector)

def DataOp.describe : DataOp → Description
  | arithmetic op => .choice op.name
  | extension op => .tagged "Extension" op.describe
  | undefined opcode => .tagged "Undefined" (.ofBits opcode)

def AddressMode.describe : AddressMode → Description
  | unindexed => .choice "Unindexed"
  | increment => .choice "Increment"
  | decrement => .choice "Decrement"
  | positiveOffset => .choice "PositiveOffset"
  | negativeOffset => .choice "NegativeOffset"
  | undefined mode => .tagged "Undefined" (.ofBits mode)

def TransferOp.describe : TransferOp → Description
  | undefined opcode => .tagged "Undefined" (.ofBits opcode)
  | op => .choice op.mnemonic.capitalize

def SystemRegister.describe : SystemRegister → Description
  | unknown index => .tagged "Unknown" (.number index)
  | register => .choice register.mnemonic.capitalize

def Instruction.describe : Instruction → Description
  | dataProcessing fields =>
    .variant "DataProcessing"
      [("precision", .choice fields.precision.name), ("op", fields.op.describe), ("fd", .ofBits fields.fd),
        ("fn_reg", .ofBits fields.fn), ("fm", .ofBits fields.fm)]
  | loadStore fields =>
    .variant "LoadStore"
      [("precision", .choice fields.precision.name), ("addressing", fields.mode.describe),
        ("load_store", .choice fields.transfer.name), ("rn", .ofBits fields.rn), ("fd", .ofBits fields.fd),
        ("offset", .ofBits fields.offset)]
  | registerTransfer fields =>
    .variant "RegisterTransfer"
      [("precision", .choice fields.precision.name), ("op", fields.op.describe), ("fn_reg", .ofBits fields.fn),
        ("rd", .ofBits fields.rd)]

end Arm32.Vfp
