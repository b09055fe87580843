import Arm32.Instruction.Operation
import Arm32.Vfp.Instruction

/-! The instructions of the core, one constructor a class. -/

namespace Arm32

structure DataProcessing where
  op : AluOp
  setFlags : Bool
  rn : Reg
  rd : Reg
  operand : Operand2
  deriving DecidableEq, Repr

structure Multiply where
  op : MultiplyOp
  setFlags : Bool
  rd : Reg
  rn : Reg
  rs : Reg
  rm : Reg
  deriving DecidableEq, Repr

structure MultiplyLong where
  op : MultiplyLongOp
  setFlags : Bool
  rdHigh : Reg
  rdLow : Reg
  rs : Reg
  rm : Reg
  deriving DecidableEq, Repr

structure Swap where
  quantity : Quantity
  rn : Reg
  rd : Reg
  rm : Reg
  deriving DecidableEq, Repr

structure HalfwordTransfer where
  mode : Addressing
  transfer : Transfer
  kind : HalfwordKind
  rn : Reg
  rd : Reg
  offset : HalfwordOffset
  deriving DecidableEq, Repr

structure SingleTransfer where
  mode : Addressing
  quantity : Quantity
  transfer : Transfer
  rn : Reg
  rd : Reg
  offset : TransferOffset
  deriving DecidableEq, Repr

structure BlockTransfer where
  mode : Addressing
  /-- The bit that asks for the status register or the user bank. -/
  privileged : Bool
  transfer : Transfer
  rn : Reg
  /-- Bit `n` stands for register `n`. -/
  list : BitVec 16
  deriving DecidableEq, Repr

namespace BlockTransfer

/-- Whether the list names a register. -/
def lists (fields : BlockTransfer) (reg : Reg) : Bool := fields.list.getLsbD reg.toNat

/-- The listed registers by number. -/
def registers (fields : BlockTransfer) : List Reg :=
  ((List.range 16).map (BitVec.ofNat 4)).filter fields.lists

/-- The lowest register belongs at the lowest address, so the list is walked the way the addresses go. -/
def order (fields : BlockTransfer) : List Reg :=
  match fields.mode.direction with
  | .up => fields.registers
  | .down => fields.registers.reverse

end BlockTransfer

inductive Instruction where
  | dataProcessing (fields : DataProcessing)
  | psrTransfer (saved : Bool) (op : PsrOp)
  | multiply (fields : Multiply)
  | multiplyLong (fields : MultiplyLong)
  | countLeadingZeros (rd rm : Reg)
  | swap (fields : Swap)
  | halfwordTransfer (fields : HalfwordTransfer)
  | singleTransfer (fields : SingleTransfer)
  | blockTransfer (fields : BlockTransfer)
  /-- `offset` counts bytes, without the look-ahead of the program counter. -/
  | branch (link : Bool) (offset : Word)
  | undefined
  | coprocessor
  | vfp (instruction : Vfp.Instruction)
  deriving DecidableEq, Repr

inductive InstructionClass where
  | dataProcessing | psrTransfer | multiply | multiplyLong | countLeadingZeros | swap
  | halfwordTransfer | singleTransfer | blockTransfer | branch | undefined | coprocessor | vfp
  deriving DecidableEq, Repr

def InstructionClass.name : InstructionClass → String
  | dataProcessing => "DataProcessing"
  | psrTransfer => "PsrTransfer"
  | multiply => "Multiply"
  | multiplyLong => "MultiplyLong"
  | countLeadingZeros => "CountLeadingZeros"
  | swap => "SingleDataSwap"
  | halfwordTransfer => "HalfwordDataTransfer"
  | singleTransfer => "SingleDataTransfer"
  | blockTransfer => "BlockDataTransfer"
  | branch => "Branch"
  | undefined => "Undefined"
  | coprocessor => "Coprocessor"
  | vfp => "Vfp"

/-- How far ahead of the executing instruction the program counter reads. -/
def prefetch : Word := 8

/-- Bytes an instruction takes. -/
def instructionBytes : Word := 4

namespace Instruction

def classOf : Instruction → InstructionClass
  | dataProcessing _ => .dataProcessing
  | psrTransfer _ _ => .psrTransfer
  | multiply _ => .multiply
  | multiplyLong _ => .multiplyLong
  | countLeadingZeros _ _ => .countLeadingZeros
  | swap _ => .swap
  | halfwordTransfer _ => .halfwordTransfer
  | singleTransfer _ => .singleTransfer
  | blockTransfer _ => .blockTransfer
  | branch _ _ => .branch
  | undefined => .undefined
  | coprocessor => .coprocessor
  | vfp _ => .vfp

/-- Distance from a branch to its target, when the program counter reads `ahead` bytes ahead. -/
def branchOffset? (ahead : Word) : Instruction → Option Int
  | branch _ offset => some (offset + ahead).toInt
  | _ => none

end Instruction

end Arm32
