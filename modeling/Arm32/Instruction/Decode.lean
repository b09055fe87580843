import Arm32.Instruction.Basic
import Arm32.Vfp.Decode

/-! Reading an instruction from its word. Bits 27 and 26 select one of four groups. In the first the
encodings overlap and the earlier test wins: multiplies, then the count of leading zeros, then the
swap, then the halfword transfers, whose pattern a swap fits too, then the moves of the status
register, which are tests that set no flags, and last data processing. -/

namespace Arm32.Instruction

def isMultiply (word : Word) : Bool :=
  word.extractLsb' 22 6 == 0b000000 && word.extractLsb' 4 4 == 0b1001

def isMultiplyLong (word : Word) : Bool :=
  word.extractLsb' 23 5 == 0b00001 && word.extractLsb' 4 4 == 0b1001

def isCountLeadingZeros (word : Word) : Bool :=
  word.extractLsb' 20 8 == 0b00010110 && word.extractLsb' 4 4 == 0b0001

def isSwap (word : Word) : Bool :=
  word.extractLsb' 23 5 == 0b00010 && word.extractLsb' 20 2 == 0b00 && word.extractLsb' 4 8 == 0b00001001

def isHalfwordTransfer (word : Word) : Bool :=
  word.extractLsb' 25 3 == 0b000 && word.getLsbD 7 && word.getLsbD 4

def isPsrTransfer (word : Word) : Bool :=
  word.extractLsb' 23 2 == 0b10 && !word.getLsbD 20

def addressingOf (word : Word) : Addressing :=
  { indexing := Indexing.ofBit (word.getLsbD 24)
    direction := Direction.ofBit (word.getLsbD 23)
    writeBack := word.getLsbD 21 }

def multiplyOf (word : Word) : Multiply :=
  { op := MultiplyOp.ofWord word
    setFlags := word.getLsbD 20
    rd := word.extractLsb' 16 4
    rn := word.extractLsb' 12 4
    rs := word.extractLsb' 8 4
    rm := word.extractLsb' 0 4 }

def multiplyLongOf (word : Word) : MultiplyLong :=
  { op := MultiplyLongOp.ofWord word
    setFlags := word.getLsbD 20
    rdHigh := word.extractLsb' 16 4
    rdLow := word.extractLsb' 12 4
    rs := word.extractLsb' 8 4
    rm := word.extractLsb' 0 4 }

def swapOf (word : Word) : Swap :=
  { quantity := Quantity.ofBit (word.getLsbD 22)
    rn := word.extractLsb' 16 4
    rd := word.extractLsb' 12 4
    rm := word.extractLsb' 0 4 }

def halfwordTransferOf (word : Word) : HalfwordTransfer :=
  { mode := addressingOf word
    transfer := Transfer.ofBit (word.getLsbD 20)
    kind := HalfwordKind.ofWord word
    rn := word.extractLsb' 16 4
    rd := word.extractLsb' 12 4
    offset := HalfwordOffset.ofWord word }

def dataProcessingOf (word : Word) : DataProcessing :=
  { op := AluOp.ofCode (word.extractLsb' 21 4)
    setFlags := word.getLsbD 20
    rn := word.extractLsb' 16 4
    rd := word.extractLsb' 12 4
    operand := Operand2.ofWord word }

def singleTransferOf (word : Word) : SingleTransfer :=
  { mode := addressingOf word
    quantity := Quantity.ofBit (word.getLsbD 22)
    transfer := Transfer.ofBit (word.getLsbD 20)
    rn := word.extractLsb' 16 4
    rd := word.extractLsb' 12 4
    offset := TransferOffset.ofWord word }

def blockTransferOf (word : Word) : BlockTransfer :=
  { mode := addressingOf word
    privileged := word.getLsbD 22
    transfer := Transfer.ofBit (word.getLsbD 20)
    rn := word.extractLsb' 16 4
    list := word.extractLsb' 0 16 }

/-- The signed word offset of a branch, turned into bytes. -/
def branchBytes (word : Word) : Word :=
  (word.extractLsb' 0 24 ++ 0#2).signExtend 32

def decodeArithmetic (word : Word) : Instruction :=
  if isMultiply word then .multiply (multiplyOf word)
  else if isMultiplyLong word then .multiplyLong (multiplyLongOf word)
  else if isCountLeadingZeros word then .countLeadingZeros (word.extractLsb' 12 4) (word.extractLsb' 0 4)
  else if isSwap word then .swap (swapOf word)
  else if isHalfwordTransfer word then .halfwordTransfer (halfwordTransferOf word)
  else if isPsrTransfer word then .psrTransfer (word.getLsbD 22) (PsrOp.ofWord word)
  else .dataProcessing (dataProcessingOf word)

/-- A register offset with a register shift has no place among the single transfers. -/
def decodeSingleTransfer (word : Word) : Instruction :=
  if word.getLsbD 25 && word.getLsbD 4 then .undefined else .singleTransfer (singleTransferOf word)

def decodeBlockOrBranch (word : Word) : Instruction :=
  if word.getLsbD 25 then .branch (word.getLsbD 24) (branchBytes word)
  else .blockTransfer (blockTransferOf word)

def decodeCoprocessor (word : Word) : Instruction :=
  match Vfp.Instruction.decode? word with
  | some instruction => .vfp instruction
  | none => .coprocessor

def decode (word : Word) : Instruction :=
  match (word.extractLsb' 26 2).toNat with
  | 0 => decodeArithmetic word
  | 1 => decodeSingleTransfer word
  | 2 => decodeBlockOrBranch word
  | _ => decodeCoprocessor word

end Arm32.Instruction
