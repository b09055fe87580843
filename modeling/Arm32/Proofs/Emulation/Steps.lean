import Arm32.Emulator

/-! Runs as chains of steps. A run takes steps until the program counter is zero or the budget is used up. Each of
the two endings is described by the chain alone, and a run may be cut after any of its steps. -/

namespace Arm32

theorem Registers.read_write (registers : Registers) (reg other : Reg) (value : Word) :
    (registers.write reg value).read other = if other = reg then value else registers.read other := by
  have within : other.toNat < 16 := other.isLt
  have cell (cells : Vector Word 16) : cells.get other.toFin = cells[other.toNat] := rfl
  rw [read, read, write, cell, cell, Vector.getElem_set]
  simp only [← BitVec.toNat_inj, eq_comm]

theorem Registers.write_read (registers : Registers) (reg : Reg) : registers.write reg (registers.read reg) = registers :=
  congrArg Registers.mk (Vector.set_getElem_self reg.isLt)

theorem Registers.setProgramCounter_programCounter (registers : Registers) :
    registers.setProgramCounter registers.programCounter = registers := registers.write_read Reg.pc

namespace Machine

variable {machine after : Machine}

theorem read_write (machine : Machine) (reg other : Reg) (value : Word) :
    (machine.write reg value).read other = if other = reg then value else machine.read other :=
  Registers.read_write machine.registers reg other value

theorem write_read (machine : Machine) (reg : Reg) : machine.write reg (machine.read reg) = machine :=
  congrArg (fun registers => { machine with registers }) (machine.registers.write_read reg)

theorem step_of_programCounter_eq_zero (ended : machine.registers.programCounter = 0) :
    machine.step = .ok (machine, none) := by
  simp [step, fetch, ended, require, bind, Except.bind, pure, Except.pure]

theorem fetch_eq_none (fetched : machine.fetch = .ok none) : machine.registers.programCounter = 0 := by
  cases aligned : machine.registers.programCounter.toNat % 4 == 0 with
  | false => simp [fetch, aligned, require, bind, Except.bind] at fetched
  | true =>
      cases loaded : machine.loadWord machine.registers.programCounter <;>
        simpa [fetch, aligned, loaded, require, bind, Except.bind, pure, Except.pure] using fetched

theorem eq_of_step_none (stopped : machine.step = .ok (after, none)) :
    machine.registers.programCounter = 0 ∧ after = machine := by
  cases fetched : machine.fetch with
  | error refusal => simp [step, fetched, bind, Except.bind] at stopped
  | ok word? =>
      cases word? with
      | none =>
          simp only [step, fetched, bind, Except.bind, pure, Except.pure, Except.ok.injEq, Prod.mk.injEq,
            and_true] at stopped
          exact ⟨fetch_eq_none fetched, stopped.symm⟩
      | some word =>
          cases executed : machine.execute word <;>
            simp [step, fetched, executed, bind, Except.bind, pure, Except.pure] at stopped

end Machine

namespace Emulator

variable {emulator before middle after : Emulator} {classOf : InstructionClass} {budget : Option Nat}
  {count fuel executed : Nat} {start : Word}

def programCounter (emulator : Emulator) : Word := emulator.machine.registers.programCounter

theorem startAt_programCounter (emulator : Emulator) : emulator.startAt emulator.programCounter = emulator := by
  simp only [startAt, programCounter, Registers.setProgramCounter_programCounter]

theorem upcoming?_of_programCounter_eq_zero (ended : emulator.programCounter = 0) : emulator.upcoming? = none := by
  simp only [programCounter] at ended
  simp [upcoming?, Machine.fetch, ended, require, bind, Except.bind, pure, Except.pure]

theorem step_of_programCounter_eq_zero (ended : emulator.programCounter = 0) :
    emulator.step = .ok (emulator, none) := by
  have recorded : emulator.traced = emulator.last := by
    simp [traced, upcoming?_of_programCounter_eq_zero ended]
  simp [step, recorded, Machine.step_of_programCounter_eq_zero ended, bind, Except.bind, pure, Except.pure]

/-- A step that executes nothing finds the program counter at zero, and changes nothing. -/
theorem eq_of_step_none (stopped : emulator.step = .ok (after, none)) :
    emulator.programCounter = 0 ∧ after = emulator := by
  have ended : emulator.programCounter = 0 := by
    cases stepped : emulator.machine.step with
    | error refusal => simp [step, stepped, bind, Except.bind] at stopped
    | ok result =>
        obtain ⟨machine, classOf⟩ := result
        simp only [step, stepped, bind, Except.bind, pure, Except.pure, Except.ok.injEq, Prod.mk.injEq] at stopped
        obtain ⟨-, rfl⟩ := stopped
        exact (Machine.eq_of_step_none stepped).1
  rw [step_of_programCounter_eq_zero ended] at stopped
  cases stopped
  exact ⟨ended, rfl⟩

/-- Steps one after the other, each of which executes an instruction. -/
inductive Steps : Nat → Emulator → Emulator → Prop where
  | refl (emulator : Emulator) : Steps 0 emulator emulator
  | cons {count : Nat} {before middle after : Emulator} {classOf : InstructionClass}
      (first : before.step = .ok (middle, some classOf)) (rest : Steps count middle after) :
      Steps (count + 1) before after

theorem not_used_up (within : ∀ limit ∈ budget, executed < limit) : budget.any (· ≤ executed) = false := by
  cases budget with
  | none => rfl
  | some limit => simpa using within limit rfl

theorem runFrom_step (within : ∀ limit ∈ budget, executed < limit)
    (first : before.step = .ok (middle, some classOf)) :
    runFrom budget (fuel + 1) executed before = runFrom budget fuel (executed + 1) middle := by
  have left : budget.any (· ≤ executed) = false := not_used_up within
  simp [runFrom, left, first]

theorem runFrom_steps (steps : Steps count before after) (within : ∀ limit ∈ budget, executed + count ≤ limit) :
    runFrom budget (fuel + count) executed before = runFrom budget fuel (executed + count) after := by
  induction steps generalizing executed with
  | refl emulator => rfl
  | @cons count before middle after classOf first rest ih =>
      have now : ∀ limit ∈ budget, executed < limit := fun limit given => by
        have := within limit given
        omega
      have later : ∀ limit ∈ budget, executed + 1 + count ≤ limit := fun limit given => by
        have := within limit given
        omega
      rw [← Nat.add_assoc, runFrom_step now first, ih later, Nat.add_assoc, Nat.add_comm 1]

theorem runFrom_of_used_up {limit : Nat} (used : limit ≤ executed) :
    runFrom (some limit) (fuel + 1) executed emulator = .ok (emulator, .budgetExhausted executed) := by
  simp [runFrom, used]

theorem runFrom_of_programCounter_eq_zero (within : ∀ limit ∈ budget, executed < limit)
    (ended : emulator.programCounter = 0) :
    runFrom budget (fuel + 1) executed emulator = .ok (emulator, .terminated executed) := by
  have left : budget.any (· ≤ executed) = false := not_used_up within
  simp [runFrom, left, step_of_programCounter_eq_zero ended]

/-- The reason that the outcome gives for stopping in a state. -/
def Stops (budget : Option Nat) (last : Emulator) : RunOutcome → Prop
  | .terminated executed => last.programCounter = 0 ∧ ∀ limit ∈ budget, executed < limit
  | .budgetExhausted executed => budget = some executed

theorem runFrom_of_stops {outcome : RunOutcome} (stops : Stops budget emulator outcome) :
    runFrom budget (fuel + 1) outcome.executed emulator = .ok (emulator, outcome) := by
  cases outcome with
  | terminated executed => exact runFrom_of_programCounter_eq_zero stops.2 stops.1
  | budgetExhausted executed =>
      cases stops
      exact runFrom_of_used_up (Nat.le_refl executed)

theorem Stops.within {outcome : RunOutcome} (stops : Stops budget emulator outcome) :
    ∀ limit ∈ budget, outcome.executed ≤ limit := by
  intro limit given
  cases outcome with
  | terminated executed => exact Nat.le_of_lt (stops.2 limit given)
  | budgetExhausted executed =>
      cases stops
      cases given
      exact Nat.le_refl _

theorem exists_steps_of_runFrom {outcome : RunOutcome} (within : ∀ limit ∈ budget, executed ≤ limit)
    (ran : runFrom budget fuel executed before = .ok (after, outcome)) :
    ∃ count, count < fuel ∧ outcome.executed = executed + count ∧ Steps count before after ∧
      Stops budget after outcome := by
  induction fuel generalizing executed before with
  | zero => cases ran
  | succ fuel ih =>
      by_cases left : ∀ limit ∈ budget, executed < limit
      · cases stepped : before.step with
        | error refusal => simp [runFrom, not_used_up left, stepped] at ran
        | ok result =>
            obtain ⟨middle, classOf?⟩ := result
            cases classOf? with
            | none =>
                obtain ⟨ended, rfl⟩ := eq_of_step_none stepped
                rw [runFrom_of_programCounter_eq_zero left ended] at ran
                cases ran
                exact ⟨0, Nat.succ_pos fuel, rfl, .refl _, ended, left⟩
            | some classOf =>
                rw [runFrom_step left stepped] at ran
                obtain ⟨count, fewer, counted, rest, stops⟩ := ih left ran
                exact ⟨count + 1, Nat.succ_lt_succ fewer, by omega, .cons stepped rest, stops⟩
      · cases budget with
        | none => simp at left
        | some limit =>
            obtain rfl : limit = executed := by
              have := within limit rfl
              have : ¬ executed < limit := fun less => left (by simpa using less)
              omega
            rw [runFrom_of_used_up (Nat.le_refl limit)] at ran
            cases ran
            exact ⟨0, Nat.succ_pos fuel, rfl, .refl _, rfl⟩

/-- A run ends in a state if and only if as many steps as it counts lead there, and its reason holds there. -/
theorem run_eq_ok_iff {outcome : RunOutcome} :
    emulator.run start budget = .ok (after, outcome) ↔
      outcome.executed < countLimit ∧ Steps outcome.executed (emulator.startAt start) after ∧
        Stops budget after outcome := by
  constructor
  · intro ran
    obtain ⟨count, fewer, counted, steps, stops⟩ := exists_steps_of_runFrom (by simp) ran
    obtain rfl : outcome.executed = count := by omega
    exact ⟨fewer, steps, stops⟩
  · rintro ⟨fewer, steps, stops⟩
    have fuel : countLimit = countLimit - outcome.executed - 1 + 1 + outcome.executed := by omega
    rw [run, fuel, runFrom_steps steps (by simpa using stops.within), Nat.zero_add]
    exact runFrom_of_stops stops

theorem runFrom_fuel {limit extra : Nat} (within : executed ≤ limit) (enough : limit < executed + fuel) :
    runFrom (some limit) (fuel + extra) executed emulator = runFrom (some limit) fuel executed emulator := by
  induction fuel generalizing executed emulator with
  | zero => omega
  | succ fuel ih =>
      rw [Nat.add_right_comm]
      by_cases used : limit ≤ executed
      · rw [runFrom_of_used_up used, runFrom_of_used_up used]
      · have next (middle : Emulator) : runFrom (some limit) (fuel + extra) (executed + 1) middle =
            runFrom (some limit) fuel (executed + 1) middle := ih (by omega) (by omega)
        simp only [runFrom, next]

end Emulator

/-- The outcome of a run that continues one of as many instructions. -/
def RunOutcome.later (earlier : Nat) : RunOutcome → RunOutcome
  | terminated executed => terminated (executed + earlier)
  | budgetExhausted executed => budgetExhausted (executed + earlier)

namespace Emulator

variable {emulator : Emulator} {fuel executed limit earlier : Nat}

/-- Only the distance to the budget matters. -/
theorem runFrom_later :
    runFrom (some (limit + earlier)) fuel (executed + earlier) emulator =
      (runFrom (some limit) fuel executed emulator).map fun (last, outcome) => (last, outcome.later earlier) := by
  induction fuel generalizing executed emulator with
  | zero => rfl
  | succ fuel ih =>
      by_cases used : limit ≤ executed
      · rw [runFrom_of_used_up used, runFrom_of_used_up (Nat.add_le_add_right used earlier)]
        rfl
      · cases stepped : emulator.step with
        | error refusal => simp [runFrom, used, stepped, Except.map]
        | ok result =>
            obtain ⟨middle, classOf?⟩ := result
            cases classOf? with
            | none => simp [runFrom, used, stepped, Except.map, RunOutcome.later]
            | some classOf => simp [runFrom, used, stepped, ← ih, Nat.add_right_comm]

end Emulator

end Arm32
