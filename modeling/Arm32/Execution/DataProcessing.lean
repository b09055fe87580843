import Arm32.Execution.Operand
import Arm32.Wide

/-! Instructions that compute in registers: data processing, moves of the status register, multiplies,
and the count of leading zeros. -/

namespace Arm32

/-- The logical operations take their carry from the shifter, the arithmetic ones from the adder. -/
inductive AluResult where
  | logical (result : Word)
  | arithmetic (sum : Sum)
  deriving DecidableEq, Repr

def AluResult.word : AluResult → Word
  | logical result => result
  | arithmetic sum => sum.result

def AluResult.setFlags (result : AluResult) (status : Psr) (shifterCarry : Bool) : Psr :=
  match result with
  | logical result => status.setLogical result shifterCarry
  | arithmetic sum => status.setArithmetic sum

/-- Subtraction adds the complement; the carry in stands for a borrow that is not there. -/
def AluOp.compute (op : AluOp) (first second : Word) (carry : Bool) : AluResult :=
  match op with
  | and | tst => .logical (first &&& second)
  | eor | teq => .logical (first ^^^ second)
  | orr => .logical (first ||| second)
  | mov => .logical second
  | bic => .logical (first &&& ~~~second)
  | mvn => .logical (~~~second)
  | sub | cmp => .arithmetic (Adder.add first (~~~second) true)
  | rsb => .arithmetic (Adder.add second (~~~first) true)
  | add | cmn => .arithmetic (Adder.add first second false)
  | adc => .arithmetic (Adder.add first second carry)
  | sbc => .arithmetic (Adder.add first (~~~second) carry)
  | rsc => .arithmetic (Adder.add second (~~~first) carry)

namespace Machine

/-- Tests have no destination and must set the flags. -/
def checkFlagBit (fields : DataProcessing) : Except Refusal Unit :=
  if fields.op.isTest then require fields.setFlags (.testWithoutFlags fields.op)
  else require (!(fields.setFlags && fields.rd == Reg.pc)) .flagsWithProgramCounter

def dataProcessing (machine : Machine) (fields : DataProcessing) : Except Refusal (Machine × Flow) := do
  checkFlagBit fields
  let first := machine.operand fields.rn (firstAhead fields.operand)
  let second ← machine.operand2 fields.operand
  let result := fields.op.compute first second.result machine.status.carry
  let machine :=
    if fields.setFlags then { machine with status := result.setFlags machine.status second.carry } else machine
  if fields.op.isTest then return (machine, .next)
  else return machine.writeResult fields.rd result.word

/-- The register whose value becomes the new flags. -/
def flagRegister (machine : Machine) (rm : Reg) : Except Refusal Word := do
  require (rm != Reg.pc) .psrWithProgramCounter
  return machine.read rm

/-- The saved status does not exist in user mode; instructions that name it use the current one. -/
def psrTransfer (machine : Machine) : PsrOp → Except Refusal Machine
  | .read rd => do
    require (rd != Reg.pc) .psrWithProgramCounter
    return machine.write rd machine.status.bits
  | .write rm => do
    let value ← machine.flagRegister rm
    return { machine with status := machine.status.setFlags value }
  | .writeFlags (.immediate field) =>
    .ok { machine with status := machine.status.setFlags (Shifter.immediate field) }
  | .writeFlags (.register rm) => do
    let value ← machine.flagRegister rm
    return { machine with status := machine.status.setFlags value }
  | .undefined => .error .undefinedPsrTransfer

/-- The carry and overflow flags are kept. -/
def multiply (machine : Machine) (fields : Multiply) : Except Refusal Machine := do
  require (fields.rd != fields.rm) .multiplyIntoOperand
  require ([fields.rd, fields.rn, fields.rs, fields.rm].all (· != Reg.pc)) .multiplyWithProgramCounter
  require (fields.op == .mla || fields.rn == 0) .multiplyWithAddend
  let product := machine.read fields.rm * machine.read fields.rs
  let result := if fields.op = .mla then product + machine.read fields.rn else product
  let status := if fields.setFlags then machine.status.setResult result.msb (result == 0) else machine.status
  return { machine.write fields.rd result with status }

def multiplyLong (machine : Machine) (fields : MultiplyLong) : Except Refusal Machine := do
  require (fields.rm != fields.rdHigh && fields.rm != fields.rdLow) .multiplyIntoOperand
  require (fields.rdHigh != fields.rdLow) .multiplyLongOneDestination
  require ([fields.rdHigh, fields.rdLow, fields.rs, fields.rm].all (· != Reg.pc)) .multiplyWithProgramCounter
  let first := machine.read fields.rm
  let second := machine.read fields.rs
  let product := if fields.op.isSigned then Wide.signedProduct first second else Wide.unsignedProduct first second
  let addend : Wide := { high := machine.read fields.rdHigh, low := machine.read fields.rdLow }
  let result := if fields.op.accumulates then Wide.add product addend else product
  let status :=
    if fields.setFlags then machine.status.setResult result.high.msb ((result.high ||| result.low) == 0)
    else machine.status
  return { (machine.write fields.rdHigh result.high).write fields.rdLow result.low with status }

def countLeadingZeros (machine : Machine) (rd rm : Reg) : Except Refusal Machine := do
  require (rd != Reg.pc && rm != Reg.pc) .countWithProgramCounter
  return machine.write rd (machine.read rm).clz

end Machine

end Arm32
