import Arm32.Proofs.Emulation.Budget
import Arm32.Proofs.Frame.Invariants
import Arm32.Proofs.Safety.Step

/-! Tracing is an observer. The disassembly of a word cannot break down, so a step with tracing goes as far as one without
it, and nothing but the record of the last disassembly tells the two apart. What is recorded is the disassembly of the
word that the step executes. -/

namespace Arm32

theorem Machine.loadWord_of_fetch {machine : Machine} {word : Word} (fetched : machine.fetch = .ok (some word)) :
    machine.loadWord machine.registers.programCounter = .ok word := by
  cases aligned : machine.registers.programCounter.toNat % 4 == 0 with
  | false => simp [fetch, aligned, require, bind, Except.bind] at fetched
  | true =>
      by_cases ended : machine.registers.programCounter = 0
      · simp [fetch, ended, require, bind, Except.bind, pure, Except.pure] at fetched
      · rw [fetch, require_bind_of_true aligned, if_neg ended] at fetched
        cases loaded : machine.loadWord machine.registers.programCounter with
        | error refusal =>
            rw [loaded] at fetched
            cases fetched
        | ok value =>
            rw [loaded] at fetched
            cases fetched
            rfl

namespace Emulator

variable {traced plain before after : Emulator} {classOf : InstructionClass}

/-! ### Steps and runs with every check made -/

def checkedStepTimes (emulator : Emulator) : Nat → Checked Refusal (Emulator × List (Option InstructionClass))
  | 0 => return (emulator, [])
  | count + 1 => do
    let (next, classOf?) ← emulator.checkedStep
    let (last, classes) ← next.checkedStepTimes count
    return (last, classOf? :: classes)

def checkedRunFrom (budget : Option Nat) (fuel executed : Nat) (emulator : Emulator) :
    Checked Refusal (Emulator × RunOutcome) :=
  match fuel with
  | 0 => throw .countOverflow
  | fuel + 1 => do
    if budget.any (· ≤ executed) then return (emulator, .budgetExhausted executed)
    else
      match ← emulator.checkedStep with
      | (emulator, none) => return (emulator, .terminated executed)
      | (emulator, some _) => checkedRunFrom budget fuel (executed + 1) emulator

def checkedRun (emulator : Emulator) (start : Word) (budget : Option Nat) : Checked Refusal (Emulator × RunOutcome) :=
  checkedRunFrom budget countLimit 0 (emulator.startAt start)

theorem checkedStepTimes_eq (emulator : Emulator) (count : Nat) :
    emulator.checkedStepTimes count = .ofExcept (emulator.stepTimes count) := by
  induction count generalizing emulator with
  | zero => rfl
  | succ count ih =>
      rw [checkedStepTimes, stepTimes, checkedStep_eq]
      cases emulator.step with
      | error refusal => rfl
      | ok result =>
          obtain ⟨next, classOf?⟩ := result
          show (next.checkedStepTimes count >>= _) = Checked.ofExcept (next.stepTimes count >>= _)
          rw [ih, Checked.ofExcept_bind]
          rfl

theorem checkedRunFrom_eq (budget : Option Nat) (fuel executed : Nat) (emulator : Emulator) :
    checkedRunFrom budget fuel executed emulator = .ofExcept (runFrom budget fuel executed emulator) := by
  induction fuel generalizing executed emulator with
  | zero => rfl
  | succ fuel ih =>
      rw [checkedRunFrom, runFrom, checkedStep_eq]
      cases budget.any (· ≤ executed) with
      | true => rfl
      | false =>
          cases emulator.step with
          | error refusal => rfl
          | ok result =>
              obtain ⟨next, classOf?⟩ := result
              cases classOf? with
              | none => rfl
              | some classOf => exact ih (executed + 1) next

/-! ### The same states with and without -/

theorem step_agree_of_eq {first second : Machine} (same : first = second) :
    Agree (fun before after => before.1 = after.1 ∧ before.2 = after.2) first.step second.step := by
  refine (Agree.of_eq (congrArg Machine.step same)).mono ?_
  rintro before after rfl
  exact ⟨rfl, rfl⟩

theorem runFrom_agree (budget : Option Nat) (fuel executed : Nat) (same : traced.machine = plain.machine) :
    Agree (Related (· = ·)) (runFrom budget fuel executed traced) (runFrom budget fuel executed plain) := by
  induction fuel generalizing executed traced plain with
  | zero => exact .errors _
  | succ fuel ih =>
      have stepped : Agree (Related (· = ·)) traced.step plain.step := step_agree (step_agree_of_eq same)
      rw [runFrom, runFrom]
      cases budget.any (· ≤ executed) with
      | true => exact .answers ⟨same, rfl⟩
      | false =>
          generalize traced.step = first at stepped ⊢
          generalize plain.step = second at stepped ⊢
          cases stepped with
          | errors refusal => exact .errors refusal
          | @answers first second related =>
              obtain ⟨tracedNext, classOf?⟩ := first
              obtain ⟨plainNext, _⟩ := second
              obtain ⟨sameNext, rfl⟩ := related
              -- The machines are the same again, whatever is on record by now.
              cases classOf? with
              | none => exact .answers ⟨sameNext, rfl⟩
              | some classOf => exact ih (executed + 1) sameNext

/-! ### What is recorded -/

theorem stepTimes_settings (emulator : Emulator) (count : Nat) :
    Ensures (fun done => done.1.settings = emulator.settings) (emulator.stepTimes count) := by
  induction count generalizing emulator with
  | zero => exact .answer rfl
  | succ count ih =>
      have first : Ensures (fun done => done.1.settings = emulator.settings) emulator.step :=
        fun _ stepped => settings_of_step stepped
      refine first.bind ?_
      rintro ⟨next, classOf?⟩ same
      refine (ih next).bind ?_
      rintro ⟨last, classes⟩ later
      exact .pure (later.trans same)

/-- A step that executes a word leaves its disassembly on record. -/
theorem last_of_step (on : before.trace = true) (stepped : before.step = .ok (after, some classOf)) :
    ∃ word, before.machine.loadWord before.programCounter = .ok word ∧
      after.last = some (disassemble before.settings.forTrace word) ∧
      (disassemble before.settings.forTrace word).classOf = classOf := by
  obtain ⟨machine, machineStepped, rfl⟩ := step_eq_ok_iff.mp stepped
  obtain ⟨-, -, impossible⟩ | ⟨word, fetched, classes, -⟩ := Machine.step_cases machineStepped
  · cases impossible
  · refine ⟨word, Machine.loadWord_of_fetch fetched, ?_, ?_⟩
    · simp [Emulator.traced, upcoming?, fetched, on]
    · exact (Option.some.inj classes).symm

/-- From the same state, an emulator that traces and one that need not trace go through the same states, answer the same,
and are refused alike. No word can upset the disassembly, and each that is executed leaves its own on record. -/
theorem tracing_transparent (same : traced.machine = plain.machine) (on : traced.trace = true) :
    (∀ count, (traced.checkedStepTimes count).run = some (traced.stepTimes count) ∧
      (plain.checkedStepTimes count).run = some (plain.stepTimes count) ∧
      Agree (Related (· = ·)) (traced.stepTimes count) (plain.stepTimes count)) ∧
    (∀ start budget, (traced.checkedRun start budget).run = some (traced.run start budget) ∧
      (plain.checkedRun start budget).run = some (plain.run start budget) ∧
      Agree (Related (· = ·)) (traced.run start budget) (plain.run start budget)) ∧
    (∀ settings word, checkedDisassemble settings word = some (disassemble settings word)) ∧
    ∀ count before classes after classOf, traced.stepTimes count = .ok (before, classes) →
      before.step = .ok (after, some classOf) →
        ∃ word, before.machine.loadWord before.programCounter = .ok word ∧
          after.last = some (disassemble traced.settings.forTrace word) ∧
          (disassemble traced.settings.forTrace word).classOf = classOf := by
  refine ⟨?steps, ?runs, checkedDisassemble_eq, ?record⟩
  case steps =>
    intro count
    rw [checkedStepTimes_eq, checkedStepTimes_eq]
    refine ⟨rfl, rfl, stepTimes_agree ?_ same (avoids_never count traced)⟩
    exact fun same _ => step_agree_of_eq same
  case runs =>
    intro start budget
    rw [checkedRun, checkedRun, checkedRunFrom_eq, checkedRunFrom_eq]
    refine ⟨rfl, rfl, runFrom_agree budget countLimit 0 ?_⟩
    simp only [startAt, same]
  case record =>
    intro count before classes after classOf reached stepped
    have sameSettings : before.settings = traced.settings := stepTimes_settings traced count (before, classes) reached
    have tracing : before.trace = true := (congrArg EmulatorSettings.trace sameSettings).trans on
    rw [← sameSettings]
    exact last_of_step tracing stepped

/-- The move of the link register into the program counter, with tracing. -/
def tracedReturn : Emulator := { (ofWord 0xE1A0F00E).startAt 0x1000 with trace := true }

theorem tracing_transparent_return :
    tracedReturn.machine = ((ofWord 0xE1A0F00E).startAt 0x1000).machine ∧ tracedReturn.trace = true ∧
      Agree (Related (· = ·)) (tracedReturn.run 0x1000 none) (((ofWord 0xE1A0F00E).startAt 0x1000).run 0x1000 none) ∧
      ∃ after, tracedReturn.step = .ok (after, some .dataProcessing) ∧
        after.last = some (disassemble tracedReturn.settings.forTrace 0xE1A0F00E) := by
  have same : tracedReturn.machine = ((ofWord 0xE1A0F00E).startAt 0x1000).machine := rfl
  obtain ⟨-, runs, -, record⟩ := tracing_transparent same rfl
  refine ⟨same, rfl, (runs 0x1000 none).2.2, ?_⟩
  obtain ⟨after, stepped⟩ : ∃ after, tracedReturn.step = .ok (after, some .dataProcessing) :=
    ⟨_, step_eq_ok_iff.mpr ⟨_, rfl, rfl⟩⟩
  obtain ⟨word, loaded, recorded, -⟩ := record 0 tracedReturn [] after .dataProcessing rfl stepped
  obtain rfl : word = 0xE1A0F00E := (Except.ok.inj loaded).symm
  exact ⟨after, stepped, recorded⟩

end Emulator
end Arm32
