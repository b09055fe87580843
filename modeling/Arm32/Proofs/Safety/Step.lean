import Arm32.Proofs.Emulation.Steps
import Arm32.Proofs.Safety.Documented
import Arm32.Proofs.Safety.Printing

/-! A step with checks: fetch, decode, trace, test the condition, execute. It never breaks down, in any state and on any
word, and has the same outcome as the plain step. What stops it is a documented refusal. -/

namespace Arm32

namespace Machine

variable {machine : Machine} {word : Word}

/-- The link register is written before the target is looked at. -/
def checkedBranch (machine : Machine) (link : Bool) (offset : Word) : Checked Refusal (Machine × Flow) := do
  let pc := machine.registers.programCounter
  let machine ← if link then machine.checkedWrite Reg.lr.toNat (pc + instructionBytes) else pure machine
  let target := pc + offset + prefetch
  require (target.toNat % 4 == 0) (.misalignedTarget target)
  return (machine.write Reg.pc target, .branched)

theorem checkedBranch_eq (link : Bool) (offset : Word) :
    machine.checkedBranch link offset = .ofExcept (machine.branch link offset) := by
  cases link <;> simp [checkedBranch, branch]

def checkedContinuing (result : Checked Refusal Machine) : Checked Refusal (Machine × Flow) := do
  let machine ← result
  return (machine, .next)

theorem checkedContinuing_eq (result : Except Refusal Machine) :
    checkedContinuing (.ofExcept result) = .ofExcept (continuing result) := by
  simp [checkedContinuing, continuing]

def checkedPerform (machine : Machine) (word : Word) : Instruction → Checked Refusal (Machine × Flow)
  | .dataProcessing fields => machine.checkedDataProcessing fields
  | .psrTransfer _ op => checkedContinuing (machine.checkedPsrTransfer op)
  | .multiply fields => checkedContinuing (machine.checkedMultiply fields)
  | .multiplyLong fields => checkedContinuing (machine.checkedMultiplyLong fields)
  | .countLeadingZeros rd rm => checkedContinuing (machine.checkedCountLeadingZeros rd rm)
  | .swap fields => checkedContinuing (machine.checkedSwap fields)
  | .halfwordTransfer fields => machine.checkedHalfwordTransfer fields
  | .singleTransfer fields => machine.checkedSingleTransfer fields
  | .blockTransfer fields => machine.checkedBlockTransfer fields
  | .branch link offset => machine.checkedBranch link offset
  | .undefined => throw (.undefinedInstruction word)
  | .coprocessor => throw (.coprocessorInstruction word)
  | .vfp instruction => checkedContinuing (machine.checkedExecuteVfp instruction)

theorem checkedPerform_eq (instruction : Instruction) :
    machine.checkedPerform word instruction = .ofExcept (machine.perform word instruction) := by
  cases instruction with
  | dataProcessing fields => exact checkedDataProcessing_eq fields
  | psrTransfer saved op => rw [checkedPerform, checkedPsrTransfer_eq, checkedContinuing_eq, perform]
  | multiply fields => rw [checkedPerform, checkedMultiply_eq, checkedContinuing_eq, perform]
  | multiplyLong fields => rw [checkedPerform, checkedMultiplyLong_eq, checkedContinuing_eq, perform]
  | countLeadingZeros rd rm => rw [checkedPerform, checkedCountLeadingZeros_eq, checkedContinuing_eq, perform]
  | swap fields => rw [checkedPerform, checkedSwap_eq, checkedContinuing_eq, perform]
  | halfwordTransfer fields => exact checkedHalfwordTransfer_eq fields
  | singleTransfer fields => exact checkedSingleTransfer_eq fields
  | blockTransfer fields => exact checkedBlockTransfer_eq fields
  | branch link offset => exact checkedBranch_eq link offset
  | undefined | coprocessor => rfl
  | vfp instruction => rw [checkedPerform, checkedExecuteVfp_eq, checkedContinuing_eq, perform]

/-- The reserved condition is not looked up among the flags. -/
def checkedExecute (machine : Machine) (word : Word) (condition : Condition) (instruction : Instruction) :
    Checked Refusal (Machine × Flow) := do
  if condition = .nv then return (machine, .next)
  else if ← machine.status.checkedHolds condition then machine.checkedPerform word instruction
  else return (machine, .next)

theorem checkedExecute_eq :
    machine.checkedExecute word (Condition.ofWord word) (Instruction.decode word) = .ofExcept (machine.execute word) := by
  unfold checkedExecute execute
  by_cases never : Condition.ofWord word = .nv
  · rw [if_pos never, never]
    rfl
  · rw [if_neg never, Psr.checkedHolds_eq]
    cases machine.status.holds (Condition.ofWord word) with
    | false => rfl
    | true => exact checkedPerform_eq _

def checkedFetch (machine : Machine) : Checked Refusal (Option Word) := do
  let pc := machine.registers.programCounter
  require (pc.toNat % 4 == 0) (.misalignedProgramCounter pc)
  if pc = 0 then return none
  else
    let word ← machine.checkedLoadWord pc
    return some word

theorem checkedFetch_eq : machine.checkedFetch = .ofExcept machine.fetch := by
  simp [checkedFetch, fetch, Checked.ofExcept_ite]

end Machine

namespace Emulator

variable {emulator : Emulator}

/-- The disassembly on record after a word has been fetched. -/
def checkedTraced (emulator : Emulator) (word : Word) : Option (Option Disassembly) := do
  if emulator.trace then
    let disassembly ← checkedDisassemble emulator.settings.forTrace word
    return some disassembly
  else return emulator.last

def checkedStep (emulator : Emulator) : Checked Refusal (Emulator × Option InstructionClass) := do
  match ← emulator.machine.checkedFetch with
  | none => return (emulator, none)
  | some word =>
    let instruction ← Instruction.checkedDecode word
    let condition ← Condition.checkedOfWord word
    let last ← emulator.checkedTraced word
    let (machine, flow) ← emulator.machine.checkedExecute word condition instruction
    return ({ emulator with machine := machine.advance flow, last }, some instruction.classOf)

theorem checkedTraced_eq {word : Word} (fetched : emulator.machine.fetch = .ok (some word)) :
    emulator.checkedTraced word = some emulator.traced := by
  cases trace : emulator.trace <;> simp [checkedTraced, traced, upcoming?, fetched, trace, checkedDisassemble_eq]

theorem traced_of_fetch_none (fetched : emulator.machine.fetch = .ok none) : emulator.traced = emulator.last := by
  simp [traced, upcoming?, fetched]

theorem checkedStep_eq : emulator.checkedStep = .ofExcept emulator.step := by
  cases fetched : emulator.machine.fetch with
  | error refusal => simp [checkedStep, step, Machine.step, Machine.checkedFetch_eq, fetched]
  | ok word? =>
      cases word? with
      | none =>
          simp [checkedStep, step, Machine.step, Machine.checkedFetch_eq, fetched, traced_of_fetch_none]
      | some word =>
          simp [checkedStep, step, Machine.step, Machine.checkedFetch_eq, fetched, Instruction.checkedDecode_eq,
            Condition.checkedOfWord_eq, checkedTraced_eq, Machine.checkedExecute_eq]

theorem step_refuses_documented (emulator : Emulator) :
    RefusesOnly (Refusal.IsDocumented emulator.upcoming?) emulator.step := by
  refine .bind ?_ fun stepped => refusesOnly_pure _
  cases fetched : emulator.machine.fetch with
  | error refusal =>
      have ordinary : refusal.IsOrdinary := Machine.fetch_refuses_ordinary refusal fetched
      rw [Machine.step, fetched]
      exact refusesOnly_error.mpr (.inl ordinary)
  | ok word? =>
      cases word? with
      | none =>
          rw [Machine.step, fetched]
          exact refusesOnly_ok _
      | some word =>
          have upcoming : emulator.upcoming? = some word := by rw [upcoming?, fetched]
          have aligned := Machine.aligned_of_fetch fetched
          rw [Machine.step, fetched, upcoming]
          show RefusesOnly _ (emulator.machine.execute word >>= _)
          exact .bind (Machine.execute_refuses_documented aligned) fun executed => refusesOnly_pure _

/-- A step never breaks down, and what can stop it is a refusal that is documented for the word that is executed. -/
theorem step_safe (emulator : Emulator) :
    emulator.checkedStep.run = some emulator.step ∧
      RefusesOnly (Refusal.IsDocumented emulator.upcoming?) emulator.step :=
  ⟨by rw [checkedStep_eq, Checked.run_ofExcept], emulator.step_refuses_documented⟩

theorem runFrom_refuses_documented {budget : Option Nat} {fuel executed : Nat} {refusal : Refusal}
    (refused : runFrom budget fuel executed emulator = .error refusal) :
    refusal = .countOverflow ∨ ∃ count last, Steps count emulator last ∧ Refusal.IsDocumented last.upcoming? refusal := by
  induction fuel generalizing emulator executed with
  | zero =>
      cases refused
      exact .inl rfl
  | succ fuel ih =>
      rw [runFrom] at refused
      split at refused
      · cases refused
      · cases stepped : emulator.step with
        | error stopped =>
            simp only [stepped, Except.error.injEq] at refused
            subst refused
            exact .inr ⟨0, emulator, .refl emulator, emulator.step_refuses_documented stopped stepped⟩
        | ok result =>
            obtain ⟨next, classOf?⟩ := result
            cases classOf? with
            | none => simp [stepped] at refused
            | some classOf =>
                simp only [stepped] at refused
                obtain overflow | ⟨count, last, steps, documented⟩ := ih refused
                · exact .inl overflow
                · exact .inr ⟨count + 1, last, .cons stepped steps, documented⟩

/-- A run that does not outlast its count is stopped by a documented refusal of one of its steps. -/
theorem run_refuses_documented {start : Word} {budget : Option Nat} {refusal : Refusal}
    (refused : emulator.run start budget = .error refusal) :
    refusal = .countOverflow ∨
      ∃ count last, Steps count (emulator.startAt start) last ∧ Refusal.IsDocumented last.upcoming? refusal :=
  runFrom_refuses_documented refused

end Emulator

end Arm32
