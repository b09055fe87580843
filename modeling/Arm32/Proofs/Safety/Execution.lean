import Arm32.Proofs.Safety.DataPath

/-! Instructions that compute in registers, with checks. Each follows its plain form step by step, with registers looked
up by number and bits and sums checked on the way, and has the same outcome. -/

namespace Arm32

open Bits (checkedAdd)

theorem Registers.number?_toNat (reg : Reg) : number? reg.toNat = some reg := by
  have below : reg.toNat < 16 := reg.isLt
  simp [number?, below]

namespace Machine

variable {machine : Machine}

/-! ### Registers and operands -/

/-- The register of a number, refused past the last one. -/
def registerOf (index : Nat) : Except Refusal Reg :=
  match Registers.number? index with
  | some reg => .ok reg
  | none => .error (.noSuchRegister index)

def checkedRead (machine : Machine) (index : Nat) : Checked Refusal Word := do
  let reg ← registerOf index
  return machine.read reg

def checkedWrite (machine : Machine) (index : Nat) (value : Word) : Checked Refusal Machine := do
  let reg ← registerOf index
  return machine.write reg value

def checkedOperand (machine : Machine) (reg : Reg) (ahead : Word) : Checked Refusal Word := do
  let value ← machine.checkedRead reg.toNat
  return if reg = Reg.pc then value + ahead else value

def checkedWriteResult (machine : Machine) (reg : Reg) (value : Word) : Checked Refusal (Machine × Flow) := do
  let machine ← machine.checkedWrite reg.toNat value
  return (machine, if reg = Reg.pc then .branched else .next)

def checkedShifted (machine : Machine) (operand : ShiftedRegister) : Checked Refusal Shifted := do
  let carry ← machine.status.checkedFlag 29
  match operand.amount with
  | .immediate places =>
    let value ← machine.checkedOperand operand.rm prefetch
    Shifter.checkedByImmediate operand.kind (places.setWidth 32) value carry
  | .register rs reserved =>
    require (rs != Reg.pc) .shiftByProgramCounter
    require (!reserved) .reservedShiftBit
    let ahead ← checkedAdd prefetch instructionBytes
    let value ← machine.checkedOperand operand.rm ahead
    let amount ← machine.checkedRead rs.toNat
    Shifter.checkedByRegister operand.kind amount value carry

def checkedOperand2 (machine : Machine) : Operand2 → Checked Refusal Shifted
  | .immediate base rotate => do
    let result ← Shifter.checkedRotated (base.setWidth 32) (rotate.setWidth 32)
    let carry ← machine.status.checkedFlag 29
    return { result, carry }
  | .register operand => machine.checkedShifted operand

/-- How far ahead the first operand reads beside this second one. -/
def checkedFirstAhead : Operand2 → Option Word
  | .immediate _ _ => some prefetch
  | .register operand => if operand.amount.isRegister then checkedAdd prefetch instructionBytes else some prefetch

@[simp] theorem checkedRead_eq (reg : Reg) : machine.checkedRead reg.toNat = pure (machine.read reg) := by
  simp [checkedRead, registerOf, Registers.number?_toNat]

@[simp] theorem checkedWrite_eq (reg : Reg) (value : Word) :
    machine.checkedWrite reg.toNat value = pure (machine.write reg value) := by
  simp [checkedWrite, registerOf, Registers.number?_toNat]

@[simp] theorem checkedOperand_eq (reg : Reg) (ahead : Word) :
    machine.checkedOperand reg ahead = pure (machine.operand reg ahead) := by
  simp [checkedOperand, operand]

@[simp] theorem checkedWriteResult_eq (reg : Reg) (value : Word) :
    machine.checkedWriteResult reg value = pure (machine.writeResult reg value) := by
  simp [checkedWriteResult, writeResult]

theorem checkedAdd_lateAhead : checkedAdd prefetch instructionBytes = some lateAhead := by decide

theorem checkedShifted_eq (operand : ShiftedRegister) :
    machine.checkedShifted operand = .ofExcept (machine.shifted operand) := by
  cases amount : operand.amount with
  | immediate places =>
      simp [checkedShifted, shifted, amount, Psr.checkedCarry_eq, Shifter.checkedByImmediate_eq]
  | register rs reserved =>
      simp [checkedShifted, shifted, amount, Psr.checkedCarry_eq, checkedAdd_lateAhead, Shifter.checkedByRegister_eq]

theorem checkedOperand2_eq (operand : Operand2) :
    machine.checkedOperand2 operand = .ofExcept (machine.operand2 operand) := by
  cases operand with
  | immediate base rotate =>
      simp [checkedOperand2, operand2, Psr.checkedCarry_eq, Shifter.checkedRotated_eq]
  | register operand => exact checkedShifted_eq operand

theorem checkedFirstAhead_eq (operand : Operand2) : checkedFirstAhead operand = some (firstAhead operand) := by
  cases operand with
  | immediate base rotate => rfl
  | register operand => simp [checkedFirstAhead, firstAhead, checkedAdd_lateAhead, apply_ite some]

/-! ### Computing in registers -/

def checkedDataProcessing (machine : Machine) (fields : DataProcessing) : Checked Refusal (Machine × Flow) := do
  checkFlagBit fields
  let ahead ← checkedFirstAhead fields.operand
  let first ← machine.checkedOperand fields.rn ahead
  let second ← machine.checkedOperand2 fields.operand
  let carry ← machine.status.checkedFlag 29
  let result ← fields.op.checkedCompute first second.result carry
  let status ← (if fields.setFlags then result.checkedSetFlags machine.status second.carry
    else some machine.status : Option Psr)
  let machine := { machine with status }
  if fields.op.isTest then return (machine, .next)
  else machine.checkedWriteResult fields.rd result.word

theorem checkedDataProcessing_eq (fields : DataProcessing) :
    machine.checkedDataProcessing fields = .ofExcept (machine.dataProcessing fields) := by
  cases setFlags : fields.setFlags <;> cases test : fields.op.isTest <;>
    simp [checkedDataProcessing, dataProcessing, setFlags, test, checkedFirstAhead_eq, checkedOperand2_eq,
      Psr.checkedCarry_eq, AluOp.checkedCompute_eq, AluResult.checkedSetFlags_eq]

def checkedFlagRegister (machine : Machine) (rm : Reg) : Checked Refusal Word := do
  require (rm != Reg.pc) .psrWithProgramCounter
  machine.checkedRead rm.toNat

def checkedPsrTransfer (machine : Machine) : PsrOp → Checked Refusal Machine
  | .read rd => do
    require (rd != Reg.pc) .psrWithProgramCounter
    machine.checkedWrite rd.toNat machine.status.bits
  | .write rm => do
    let value ← machine.checkedFlagRegister rm
    return { machine with status := machine.status.setFlags value }
  | .writeFlags (.immediate field) => do
    let value ← Shifter.checkedImmediate field
    return { machine with status := machine.status.setFlags value }
  | .writeFlags (.register rm) => do
    let value ← machine.checkedFlagRegister rm
    return { machine with status := machine.status.setFlags value }
  | .undefined => throw .undefinedPsrTransfer

theorem checkedPsrTransfer_eq (op : PsrOp) :
    machine.checkedPsrTransfer op = .ofExcept (machine.psrTransfer op) := by
  cases op with
  | read rd => simp [checkedPsrTransfer, psrTransfer]
  | write rm => simp [checkedPsrTransfer, psrTransfer, checkedFlagRegister, flagRegister]
  | writeFlags source =>
      cases source with
      | immediate field => simp [checkedPsrTransfer, psrTransfer, Shifter.checkedImmediate_eq]
      | register rm => simp [checkedPsrTransfer, psrTransfer, checkedFlagRegister, flagRegister]
  | undefined => rfl

def checkedMultiply (machine : Machine) (fields : Multiply) : Checked Refusal Machine := do
  require (fields.rd != fields.rm) .multiplyIntoOperand
  require ([fields.rd, fields.rn, fields.rs, fields.rm].all (· != Reg.pc)) .multiplyWithProgramCounter
  let product := (← machine.checkedRead fields.rm.toNat) * (← machine.checkedRead fields.rs.toNat)
  let result ←
    match fields.op with
    | .mla => do
      let addend ← machine.checkedRead fields.rn.toNat
      pure (product + addend)
    | .mul => do
      require (fields.rn == 0) .multiplyWithAddend
      pure product
  let after ← machine.checkedWrite fields.rd.toNat result
  if fields.setFlags then
    let negative ← Bits.bit? result 31
    let status ← after.status.checkedSetResult negative (result == 0)
    return { after with status }
  else return after

theorem checkedMultiply_eq (fields : Multiply) :
    machine.checkedMultiply fields = .ofExcept (machine.multiply fields) := by
  have multiplies : (MultiplyOp.mul == MultiplyOp.mla) = false := rfl
  cases op : fields.op <;> cases setFlags : fields.setFlags <;>
    simp (disch := decide) [checkedMultiply, multiply, op, setFlags, multiplies, require, write,
      Bits.bit?_eq, Psr.checkedSetResult_eq, BitVec.msb_eq_getLsbD_last]

def checkedMultiplyLong (machine : Machine) (fields : MultiplyLong) : Checked Refusal Machine := do
  require (fields.rm != fields.rdHigh && fields.rm != fields.rdLow) .multiplyIntoOperand
  require (fields.rdHigh != fields.rdLow) .multiplyLongOneDestination
  require ([fields.rdHigh, fields.rdLow, fields.rs, fields.rm].all (· != Reg.pc)) .multiplyWithProgramCounter
  let first ← machine.checkedRead fields.rm.toNat
  let second ← machine.checkedRead fields.rs.toNat
  let addend : Wide :=
    { high := ← machine.checkedRead fields.rdHigh.toNat, low := ← machine.checkedRead fields.rdLow.toNat }
  let product ← (if fields.op.isSigned then Wide.checkedSignedProduct first second
    else Wide.checkedUnsignedProduct first second : Option Wide)
  let result := if fields.op.accumulates then Wide.add product addend else product
  let after ← machine.checkedWrite fields.rdHigh.toNat result.high
  let after ← after.checkedWrite fields.rdLow.toNat result.low
  if fields.setFlags then
    let negative ← Bits.bit? result.high 31
    let status ← after.status.checkedSetResult negative ((result.high ||| result.low) == 0)
    return { after with status }
  else return after

theorem checkedMultiplyLong_eq (fields : MultiplyLong) :
    machine.checkedMultiplyLong fields = .ofExcept (machine.multiplyLong fields) := by
  cases signed : fields.op.isSigned <;> cases setFlags : fields.setFlags <;>
    simp (disch := decide) [checkedMultiplyLong, multiplyLong, signed, setFlags, write, Bits.bit?_eq,
      Psr.checkedSetResult_eq, Wide.checkedSignedProduct_eq, Wide.checkedUnsignedProduct_eq,
      BitVec.msb_eq_getLsbD_last]

def checkedCountLeadingZeros (machine : Machine) (rd rm : Reg) : Checked Refusal Machine := do
  require (rd != Reg.pc && rm != Reg.pc) .countWithProgramCounter
  let value ← machine.checkedRead rm.toNat
  machine.checkedWrite rd.toNat value.clz

theorem checkedCountLeadingZeros_eq (rd rm : Reg) :
    machine.checkedCountLeadingZeros rd rm = .ofExcept (machine.countLeadingZeros rd rm) := by
  simp [checkedCountLeadingZeros, countLeadingZeros]

end Machine

end Arm32
