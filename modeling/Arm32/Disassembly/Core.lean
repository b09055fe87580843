import Arm32.Disassembly.Operand

/-! Text and notes of the core instructions, class by class. -/

namespace Arm32

/-- The suffix of instructions that set the flags. -/
def flagSuffix (setFlags : Bool) : String := if setFlags then "s" else ""

namespace DataProcessing

def render (fields : DataProcessing) (style : ImmediateStyle) (condition : Condition) : Layout :=
  let mnemonic := fields.op.mnemonic ++ condition.suffix
  let second := fields.operand.render style
  if fields.op.isTest then .columns mnemonic (fields.rn.name ++ ", " ++ second)
  else if fields.op.isMove then
    .columns (mnemonic ++ flagSuffix fields.setFlags) (fields.rd.name ++ ", " ++ second)
  else
    .columns (mnemonic ++ flagSuffix fields.setFlags)
      (fields.rd.name ++ ", " ++ fields.rn.name ++ ", " ++ second)

def notes (fields : DataProcessing) (condition : Condition) : List Note :=
  condition.notes ++
    Note.when (fields.op.isTest && !fields.setFlags) .testWithoutFlags ++
    Note.when (!fields.op.isTest && fields.setFlags && fields.rd == Reg.pc) .flagsWithProgramCounter ++
    fields.operand.notes

end DataProcessing

namespace PsrOp

def render (op : PsrOp) (style : ImmediateStyle) (condition : Condition) : Layout :=
  match op with
  | read rd => .columns ("mrs" ++ condition.suffix) (rd.name ++ ", CPSR")
  | write rm => .columns ("msr" ++ condition.suffix) ("CPSR_flg, " ++ rm.name)
  | writeFlags (.immediate field) =>
    .columns ("msr" ++ condition.suffix) ("CPSR_flg, " ++ style.write (Shifter.immediate field))
  | writeFlags (.register rm) => .columns ("msr" ++ condition.suffix) ("CPSR_flg, " ++ rm.name)
  | undefined => .plain ""

def notes (saved : Bool) (op : PsrOp) (condition : Condition) : List Note :=
  Note.when saved .savedStatus ++
    match op with
    | read rd => Note.when (rd == Reg.pc) .psrWithProgramCounter ++ condition.notes
    | write rm => Note.when (rm == Reg.pc) .psrWithProgramCounter ++ condition.notes
    | writeFlags (.immediate _) => condition.notes
    | writeFlags (.register rm) => condition.notes ++ Note.when (rm == Reg.pc) .psrWithProgramCounter
    | undefined => [.undefinedPsrTransfer]

end PsrOp

namespace Multiply

def render (fields : Multiply) (condition : Condition) : Layout :=
  .columns (fields.op.mnemonic ++ condition.suffix ++ flagSuffix fields.setFlags)
    (fields.rd.name ++ ", " ++ fields.rm.name ++ ", " ++ fields.rs.name ++
      match fields.op with
      | .mla => ", " ++ fields.rn.name
      | .mul => "")

def notes (fields : Multiply) (condition : Condition) : List Note :=
  Note.when (fields.rm == fields.rd) .multiplyIntoOperand ++
    Note.when ([fields.rd, fields.rn, fields.rs, fields.rm].contains Reg.pc) .multiplyWithProgramCounter ++
    condition.notes ++
    Note.when (fields.op == .mul && fields.rn != 0) .multiplyWithAddend

end Multiply

namespace MultiplyLong

def render (fields : MultiplyLong) (condition : Condition) : Layout :=
  .columns (fields.op.mnemonic ++ condition.suffix ++ flagSuffix fields.setFlags)
    (fields.rdLow.name ++ ", " ++ fields.rdHigh.name ++ ", " ++ fields.rm.name ++ ", " ++ fields.rs.name)

def notes (fields : MultiplyLong) (condition : Condition) : List Note :=
  Note.when (fields.rm == fields.rdLow || fields.rm == fields.rdHigh) .multiplyIntoOperand ++
    Note.when (fields.rdLow == fields.rdHigh) .multiplyLongOneDestination ++
    Note.when ([fields.rdHigh, fields.rdLow, fields.rs, fields.rm].contains Reg.pc) .multiplyWithProgramCounter ++
    condition.notes

end MultiplyLong

namespace Swap

def render (fields : Swap) (condition : Condition) : Layout :=
  .columns ("swp" ++ condition.suffix ++ fields.quantity.suffix)
    (fields.rd.name ++ ", " ++ fields.rm.name ++ ", [" ++ fields.rn.name ++ "]")

def notes (fields : Swap) (condition : Condition) : List Note :=
  Note.when ([fields.rn, fields.rd, fields.rm].contains Reg.pc) .swapWithProgramCounter ++ condition.notes

end Swap

namespace SingleTransfer

/-- The offset as printed, for the immediate form. -/
def printed (fields : SingleTransfer) (offset : BitVec 12) : Word :=
  printedOffset fields.mode.direction fields.rn prefetch (offset.setWidth 32)

/-- Write-back has a meaning of its own after post-indexing. -/
def writeBackSuffix (mode : Addressing) : String :=
  if mode.indexing = .post ∧ mode.writeBack then "t" else ""

def render (fields : SingleTransfer) (style : ImmediateStyle) (condition : Condition) : Layout :=
  .columns
    (fields.transfer.mnemonic ++ condition.suffix ++ fields.quantity.suffix ++ writeBackSuffix fields.mode)
    (fields.rd.name ++ ", " ++
      match fields.offset with
      | .immediate offset => fields.mode.renderImmediate style fields.rn (fields.printed offset)
      | .register operand => fields.mode.renderRegister fields.rn (operand.render style))

def notes (fields : SingleTransfer) (condition : Condition) : List Note :=
  condition.notes ++
    Note.when (fields.mode.indexing == .post && fields.mode.writeBack) .writeBackAfterPostIndexing ++
    match fields.offset with
    | .immediate offset => fields.mode.immediateNotes fields.rn (fields.printed offset)
    | .register operand =>
      Note.when operand.amount.isRegister .offsetShiftedByRegister ++
        Note.when (operand.rm == Reg.pc) .offsetInProgramCounter ++ operand.notes

end SingleTransfer

namespace HalfwordTransfer

def printed (fields : HalfwordTransfer) (offset : BitVec 8) : Word :=
  printedOffset fields.mode.direction fields.rn prefetch (offset.setWidth 32)

def render (fields : HalfwordTransfer) (style : ImmediateStyle) (condition : Condition) : Layout :=
  .columns (fields.transfer.mnemonic ++ condition.suffix ++ fields.kind.suffix)
    (fields.rd.name ++ ", " ++
      match fields.offset with
      | .immediate offset => fields.mode.renderImmediate style fields.rn (fields.printed offset)
      | .register rm => fields.mode.renderRegister fields.rn rm.name)

def notes (fields : HalfwordTransfer) (condition : Condition) : List Note :=
  let signedStore := fields.transfer == .store && fields.kind.isSigned
  Note.when (fields.kind == .swap) .swapAmongHalfwords ++ condition.notes ++
    Note.when (signedStore && fields.kind.isHalfword) .signedHalfwordStore ++
    Note.when (!fields.kind.isHalfword && !fields.kind.isSigned) .unsignedByteAmongHalfwords ++
    Note.when (signedStore && !fields.kind.isHalfword) .signedByteStore ++
    Note.when (fields.mode.indexing == .post && fields.mode.writeBack) .halfwordWriteBackAfterPostIndexing ++
    match fields.offset with
    | .immediate offset => fields.mode.immediateNotes fields.rn (fields.printed offset)
    | .register rm => Note.when (rm == Reg.pc) .offsetInProgramCounter

end HalfwordTransfer

namespace BlockTransfer

/-- Increment or decrement, before or after. -/
def modeSuffix (mode : Addressing) : String :=
  (match mode.direction with
    | .up => "i"
    | .down => "d") ++
  match mode.indexing with
  | .pre => "b"
  | .post => "a"

def render (fields : BlockTransfer) (condition : Condition) : Layout :=
  .columns (fields.transfer.blockMnemonic ++ condition.suffix ++ modeSuffix fields.mode)
    (fields.rn.name ++ (if fields.mode.writeBack then "!" else "") ++ ", \x7b" ++
      ", ".intercalate (fields.registers.map Reg.name) ++ "\x7d")

def notes (fields : BlockTransfer) (condition : Condition) : List Note :=
  let store := fields.transfer == .store
  Note.when fields.privileged .privilegedBlock ++
    Note.when (fields.rn == Reg.pc) .blockBaseIsProgramCounter ++
    Note.when (store && fields.lists Reg.pc) .blockStoresProgramCounter ++
    Note.when (store && fields.mode.writeBack && fields.lists fields.rn) .blockStoresOwnBase ++
    condition.notes ++
    Note.when (fields.list == 0) .emptyList

end BlockTransfer

end Arm32
