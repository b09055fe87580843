import Arm32.Instruction.Basic
import Arm32.Memory.Image

/-! Why the machine stops short of completing an instruction. A refusal is final: there is no state
after it. -/

namespace Arm32

inductive Refusal where
  | access (fault : Memory.Fault)
  | noSuchRegister (index : Nat)
  | misalignedProgramCounter (address : Word)
  | misalignedTarget (address : Word)
  | undefinedInstruction (word : Word)
  | coprocessorInstruction (word : Word)
  /-- A test whose bit for setting the flags is clear. -/
  | testWithoutFlags (op : AluOp)
  /-- Setting the flags along with the program counter would restore a saved status. -/
  | flagsWithProgramCounter
  | shiftByProgramCounter
  | reservedShiftBit
  | psrWithProgramCounter
  | undefinedPsrTransfer
  | multiplyIntoOperand
  | multiplyWithProgramCounter
  | multiplyWithAddend
  | multiplyLongOneDestination
  | countWithProgramCounter
  | swapWithProgramCounter
  | writeBackAfterPostIndexing
  | writeBackToProgramCounter
  | offsetShiftedByRegister
  | offsetInProgramCounter
  | swapAmongHalfwords
  | signedHalfwordStore
  | signedByteStore
  | privilegedBlock
  | blockBaseIsProgramCounter
  | blockStoresProgramCounter
  | blockStoresOwnBase
  | noSuchSlot (index : Nat)
  | noSuchSystemRegister (index : Nat)
  | undefinedVfpOpcode (opcode : BitVec 4)
  | undefinedVfpExtension (selector : Nat)
  | undefinedVfpAddressing (mode : BitVec 3)
  | undefinedVfpTransfer (opcode : BitVec 4)
  | flagsFromOtherRegister
  | vfpTransferWithProgramCounter
  /-- More instructions than 64 bits can count. -/
  | countOverflow
  deriving DecidableEq, Repr

namespace Refusal

/-- The three bits of a mode, top bit first. -/
def modeDigits (mode : BitVec 3) : String :=
  String.ofList ((List.range 3).map fun place => if mode.getMsbD place then '1' else '0')

def upperHex (value : Nat) : String := (String.ofList (Hex.digits value)).toUpper

def message : Refusal → String
  | access fault => fault.message
  | noSuchRegister index => s!"Invalid register index: {index} (0x{upperHex index})"
  | misalignedProgramCounter address => s!"program counter {Hex.word address} is not word aligned"
  | misalignedTarget address => s!"branch target {Hex.word address} is not word aligned"
  | undefinedInstruction word => s!"undefined instruction {Hex.word word} (not emulated)"
  | coprocessorInstruction word => s!"coprocessor or SWI {Hex.word word} (not emulated)"
  | testWithoutFlags op => s!"{op.mnemonic} must always set the condition codes"
  | flagsWithProgramCounter => "S bit with R15 as destination is not allowed in user mode"
  | shiftByProgramCounter => "shift register cannot be R15"
  | reservedShiftBit => "bit 7 of a register shift must be clear"
  | psrWithProgramCounter => "R15 cannot be used for a PSR transfer"
  | undefinedPsrTransfer => "undefined PSR transfer instruction"
  | multiplyIntoOperand => "multiply destination cannot be the same as Rm"
  | multiplyWithProgramCounter => "R15 cannot be used by a multiply"
  | multiplyWithAddend => "MUL expects Rn to be zero"
  | multiplyLongOneDestination => "RdHi and RdLo must be different registers"
  | countWithProgramCounter => "R15 cannot be used as an operand for clz"
  | swapWithProgramCounter => "R15 cannot be used as an operand for swap"
  | writeBackAfterPostIndexing => "write-back must be clear with post-indexing"
  | writeBackToProgramCounter => "write-back to R15 is not allowed"
  | offsetShiftedByRegister => "transfer offset shift cannot be specified as a register"
  | offsetInProgramCounter => "R15 cannot be used as the offset register"
  | swapAmongHalfwords => "S and H both clear encode SWP, not a halfword transfer"
  | signedHalfwordStore => "signed halfword store does not exist"
  | signedByteStore => "signed byte store does not exist"
  | privilegedBlock => "S bit can only be used in a privileged mode"
  | blockBaseIsProgramCounter => "R15 cannot be used as the base register"
  | blockStoresProgramCounter => "STM of R15 is not emulated"
  | blockStoresOwnBase => "STM with write-back cannot store its own base"
  | noSuchSlot index => s!"VFP register slot {index} does not exist"
  | noSuchSystemRegister index => s!"VFP system register {index} does not exist"
  | undefinedVfpOpcode opcode => s!"undefined VFP data processing opcode {opcode.toNat}"
  | undefinedVfpExtension selector => s!"undefined VFP extension operation {selector}"
  | undefinedVfpAddressing mode => s!"undefined VFP addressing mode 0b{modeDigits mode}"
  | undefinedVfpTransfer opcode => s!"undefined VFP register transfer opcode {opcode.toNat}"
  | flagsFromOtherRegister => "only FPSCR can be moved to the CPSR flags"
  | vfpTransferWithProgramCounter => "R15 cannot be used for a VFP register transfer"
  | countOverflow => "attempt to add with overflow"

end Refusal

/-- Goes on only if a rule of the architecture is kept. -/
def require (rule : Bool) (otherwise : Refusal) : Except Refusal Unit :=
  if rule then .ok () else .error otherwise

end Arm32
