import Arm32.Execution.DataProcessing
import Arm32.Execution.Transfer
import Arm32.Execution.Vfp
import Arm32.Instruction.Decode

/-! One instruction: fetch, decode, test the condition, execute, move on. A program counter of zero
ends the program. -/

namespace Arm32.Machine

/-- The link register receives the address after the branch. -/
def branch (machine : Machine) (link : Bool) (offset : Word) : Except Refusal (Machine × Flow) := do
  let pc := machine.registers.programCounter
  let target := pc + offset + prefetch
  require (target.toNat % 4 == 0) (.misalignedTarget target)
  let machine := if link then machine.write Reg.lr (pc + instructionBytes) else machine
  return (machine.write Reg.pc target, .branched)

/-- Pairs the outcome of an instruction that does not branch with that fact. -/
def continuing (result : Except Refusal Machine) : Except Refusal (Machine × Flow) :=
  result.map fun machine => (machine, .next)

/-- Carries out an instruction whose condition holds. The word serves the refusals that quote it. -/
def perform (machine : Machine) (word : Word) : Instruction → Except Refusal (Machine × Flow)
  | .dataProcessing fields => machine.dataProcessing fields
  | .psrTransfer _ op => continuing (machine.psrTransfer op)
  | .multiply fields => continuing (machine.multiply fields)
  | .multiplyLong fields => continuing (machine.multiplyLong fields)
  | .countLeadingZeros rd rm => continuing (machine.countLeadingZeros rd rm)
  | .swap fields => continuing (machine.swap fields)
  | .halfwordTransfer fields => machine.halfwordTransfer fields
  | .singleTransfer fields => machine.singleTransfer fields
  | .blockTransfer fields => machine.blockTransfer fields
  | .branch link offset => machine.branch link offset
  | .undefined => .error (.undefinedInstruction word)
  | .coprocessor => .error (.coprocessorInstruction word)
  | .vfp instruction => continuing (machine.executeVfp instruction)

/-- An instruction whose condition does not hold does nothing. -/
def execute (machine : Machine) (word : Word) : Except Refusal (Machine × Flow) :=
  if machine.status.holds (Condition.ofWord word) then machine.perform word (Instruction.decode word)
  else .ok (machine, .next)

/-- The word at the program counter, none when the program has ended. -/
def fetch (machine : Machine) : Except Refusal (Option Word) := do
  let pc := machine.registers.programCounter
  require (pc.toNat % 4 == 0) (.misalignedProgramCounter pc)
  if pc = 0 then return none
  else
    let word ← machine.loadWord pc
    return some word

def advance (machine : Machine) : Flow → Machine
  | .next => { machine with registers := machine.registers.advance instructionBytes }
  | .branched => machine

/-- One instruction and its class, none when the program has ended. -/
def step (machine : Machine) : Except Refusal (Machine × Option InstructionClass) := do
  match ← machine.fetch with
  | none => return (machine, none)
  | some word =>
    let (machine, flow) ← machine.execute word
    return (machine.advance flow, some (Instruction.decode word).classOf)

end Arm32.Machine
