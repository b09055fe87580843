/-! Remarks that go with a disassembled instruction. An error stands for an encoding that execution
refuses, a warning for one that it puts up with. -/

namespace Arm32

inductive Severity where
  | remark | warning | error
  deriving DecidableEq, Repr

/-- What the text of a note starts with. -/
def Severity.mark : Severity → String
  | remark => ""
  | warning => "warning: "
  | error => "ERROR: "

inductive Note where
  | neverCondition
  | testWithoutFlags
  | flagsWithProgramCounter
  | shiftByProgramCounter
  | reservedShiftBit
  | savedStatus
  | psrWithProgramCounter
  | undefinedPsrTransfer
  | multiplyIntoOperand
  | multiplyLongOneDestination
  | multiplyWithProgramCounter
  | multiplyWithAddend
  | countWithProgramCounter
  | swapWithProgramCounter
  | writeBackAfterPostIndexing
  | offsetShiftedByRegister
  | offsetInProgramCounter
  | writeBackToProgramCounter
  | swapAmongHalfwords
  | signedHalfwordStore
  | signedByteStore
  | unsignedByteAmongHalfwords
  | halfwordWriteBackAfterPostIndexing
  | privilegedBlock
  | blockBaseIsProgramCounter
  | blockStoresProgramCounter
  | blockStoresOwnBase
  | emptyList
  | undefinedVfpOperation
  | undefinedVfpAddressing
  | listPastLastSlot
  | flagsFromOtherRegister
  | vfpTransferWithProgramCounter
  | unknownSystemRegister
  | undefinedVfpTransfer
  deriving DecidableEq, Repr

namespace Note

def severity : Note → Severity
  | neverCondition => .remark
  | testWithoutFlags | savedStatus | writeBackAfterPostIndexing | privilegedBlock => .warning
  | _ => .error

def content : Note → String
  | neverCondition => "condition code NV should never be used (ARM7)."
  | testWithoutFlags => "S-bit must always be set for this instruction"
  | flagsWithProgramCounter => "S bit with R15 as destination is not allowed in user mode"
  | shiftByProgramCounter => "shift register cannot be R15"
  | reservedShiftBit => "bit 7 of the instruction should be clear"
  | savedStatus => "in the user mode the destination must always be CPSR"
  | psrWithProgramCounter => "R15 (PC) cannot be used for this instruction"
  | undefinedPsrTransfer => "undefined PSR transfer instruction"
  | multiplyIntoOperand => "source register Rm cannot be the same as the destination"
  | multiplyLongOneDestination => "RdHi and RdLo must be different registers"
  | multiplyWithProgramCounter => "R15 cannot be used"
  | multiplyWithAddend => "for MUL Rn should be zero for upwards compatibility (v4)"
  | countWithProgramCounter => "R15 cannot be used as an operand for clz"
  | swapWithProgramCounter => "R15 cannot be used as an operand for swap"
  | writeBackAfterPostIndexing =>
    "write-back specified with postindexing (forces nonprivileged mode transfer)"
  | offsetShiftedByRegister => "shift cannot be specified as a register"
  | offsetInProgramCounter => "R15 cannot be used as the offset register"
  | writeBackToProgramCounter => "write-back to R15 is not allowed"
  | swapAmongHalfwords => "SWP instruction specified instead of halfword and signed data transfer"
  | signedHalfwordStore => "signed halfword store does not exist"
  | signedByteStore => "signed byte store does not exist"
  | unsignedByteAmongHalfwords => "unsigned byte store should not use halfword and signed transfer"
  | halfwordWriteBackAfterPostIndexing =>
    "write-back specified with postindexing in halfword and signed transfer"
  | privilegedBlock => "S-bit can only be used in a privileged mode"
  | blockBaseIsProgramCounter => "R15 cannot be used as the base register"
  | blockStoresProgramCounter => "STM of R15 is not emulated"
  | blockStoresOwnBase => "STM with write-back cannot store its own base"
  | emptyList => "no registers to load/store"
  | undefinedVfpOperation => "undefined VFP data processing instruction"
  | undefinedVfpAddressing => "undefined VFP addressing mode"
  | listPastLastSlot => "register list runs past the last VFP register"
  | flagsFromOtherRegister => "only FPSCR can be moved to the CPSR flags"
  | vfpTransferWithProgramCounter => "R15 cannot be used for a VFP register transfer"
  | unknownSystemRegister => "unknown VFP system register"
  | undefinedVfpTransfer => "undefined VFP register transfer"

def text (note : Note) : String := note.severity.mark ++ note.content

/-- A single note, if there is reason for it. -/
def when (reason : Bool) (note : Note) : List Note := if reason then [note] else []

/-- Several notes on one line. -/
def line (notes : List Note) : String := " ".intercalate (notes.map text)

end Note

end Arm32
