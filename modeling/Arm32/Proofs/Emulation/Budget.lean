import Arm32.CommandLine.Report
import Arm32.Proofs.Emulation.Steps

/-! What a budget does to a run. Budgets add up, and one that is not reached makes no difference. Which of the two
comes first is not always told: a program that returns with the last instruction of its budget is reported, and
warned about, as one that did not return. -/

namespace Arm32

theorem Warning.exists_message (warning : Warning) :
    ∃ first rest, warning.message = first ++ rest ∧ first.toList.head? ∈ [some 'c', some 'P', some 'w'] := by
  cases warning with
  | neverCondition address => exact ⟨_, _, String.append_assoc, by decide⟩
  | savedStatus => exact ⟨_, "", String.append_empty.symm, by decide⟩
  | readOnlyRegister value => exact ⟨_, _, String.append_assoc, by decide⟩

theorem Warning.head?_message_ne (warning : Warning) : warning.message.toList.head? ≠ some 'i' := by
  obtain ⟨first, rest, text, initial⟩ := warning.exists_message
  rw [text, String.toList_append, List.head?_append]
  intro same
  simp only [List.mem_cons, List.not_mem_nil, or_false] at initial
  rcases initial with initial | initial | initial <;> simp [initial] at same

namespace CommandLine.Report

variable {emulator : Emulator} {start : Word} {budget : Option Nat}

def budgetWarning : LogLine :=
  { severity := .warn, message := "instruction budget exhausted before the program returned" }

theorem ofEvent_ne_budgetWarning (event : Event) : LogLine.ofEvent event ≠ budgetWarning := by
  intro same
  cases event with
  | traced address word disassembly =>
      have severities : Severity.debug = Severity.warn := congrArg LogLine.severity same
      cases severities
  | warned warning =>
      have texts : warning.message = budgetWarning.message := congrArg LogLine.message same
      exact warning.head?_message_ne (by rw [texts]; decide)

theorem code_ran_eq_budgetCode_iff :
    (ran emulator start budget).ending.code = Ending.budgetCode ↔
      ∃ last executed, emulator.run start budget = .ok (last, .budgetExhausted executed) := by
  cases ending : emulator.run start budget with
  | error refusal => simp [ran, ending, Ending.code, Ending.refusalCode, Ending.budgetCode]
  | ok result =>
      obtain ⟨last, outcome⟩ := result
      cases outcome <;> simp [ran, ending, Ending.code, Ending.budgetCode]

theorem budgetWarning_mem_log_ran_iff :
    budgetWarning ∈ (ran emulator start budget).log ↔
      ∃ last executed, emulator.run start budget = .ok (last, .budgetExhausted executed) := by
  have opening (message : String) : budgetWarning ≠ ⟨.info, message⟩ := by
    intro same
    have severities : Severity.warn = Severity.info := congrArg LogLine.severity same
    cases severities
  cases ending : emulator.run start budget with
  | error refusal => simp [ran, ending, opening, ofEvent_ne_budgetWarning]
  | ok result =>
      obtain ⟨last, outcome⟩ := result
      cases outcome with
      | terminated executed => simp [ran, ending, opening, ofEvent_ne_budgetWarning]
      | budgetExhausted executed => simp [ran, ending, budgetWarning]

end CommandLine.Report

namespace Emulator

open CommandLine (Ending)
open CommandLine.Report (ran budgetWarning code_ran_eq_budgetCode_iff budgetWarning_mem_log_ran_iff)

variable {emulator : Emulator} {start : Word}

/-- Nothing is mapped but one instruction at 0x1000. -/
def ofWord (word : Word) : Emulator :=
  ofImage ⟨.arm7, .little, false⟩
    { base := 0x1000
      size := 4
      cells := (Memory.Cells.all 0).setFrom 0x1000 ((List.range 4).map (ByteOrder.little.byteOfWord word))
      order := .little
      fits := by decide }

/-- The move of a link register of zero into the program counter is a program that returns at once. -/
theorem step_return : ((ofWord 0xE1A0F00E).startAt 0x1000).step =
    .ok ((ofWord 0xE1A0F00E).startAt 0, some .dataProcessing) := rfl

theorem run_return_budgetExhausted :
    (ofWord 0xE1A0F00E).run 0x1000 (some 1) = .ok ((ofWord 0xE1A0F00E).startAt 0, .budgetExhausted 1) :=
  run_eq_ok_iff.mpr ⟨by decide, .cons step_return (.refl _), rfl⟩

/-- The outcome and the program counter at the end tell whether the program returned, but for one that returns with
the last instruction of its budget. The exit code and the warning follow the outcome. -/
theorem run_budgetExhausted_at_return_iff {budget : Option Nat} :
    (∀ last executed, emulator.run start budget = .ok (last, .terminated executed) → last.programCounter = 0) ∧
      (∀ last executed,
        emulator.run start budget = .ok (last, .budgetExhausted executed) ∧ last.programCounter = 0 ↔
          budget = some executed ∧ emulator.run start none = .ok (last, .terminated executed)) ∧
      ((ran emulator start budget).ending.code = Ending.budgetCode ↔
        ∃ last executed, emulator.run start budget = .ok (last, .budgetExhausted executed)) ∧
      (budgetWarning ∈ (ran emulator start budget).log ↔
        ∃ last executed, emulator.run start budget = .ok (last, .budgetExhausted executed)) := by
  refine ⟨fun last executed terminated => ?_, fun last executed => ?_, code_ran_eq_budgetCode_iff,
    budgetWarning_mem_log_ran_iff⟩
  · obtain ⟨-, -, ended, -⟩ := run_eq_ok_iff.mp terminated
    exact ended
  · simp only [run_eq_ok_iff, Stops]
    constructor
    · rintro ⟨⟨counted, steps, used⟩, ended⟩
      exact ⟨used, counted, steps, ended, by simp⟩
    · rintro ⟨used, counted, steps, ended, -⟩
      exact ⟨⟨counted, steps, used⟩, ended⟩

theorem run_return_without_budget : (ofWord 0xE1A0F00E).run 0x1000 none =
    .ok ((ofWord 0xE1A0F00E).startAt 0, .terminated 1) :=
  ((run_budgetExhausted_at_return_iff.2.1 _ 1).mp ⟨run_return_budgetExhausted, rfl⟩).2

/-- The program returned, and the warning says that the budget was exhausted before it did. -/
theorem budgetExhausted_of_returned :
    (ofWord 0xE1A0F00E).run 0x1000 (some 1) = .ok ((ofWord 0xE1A0F00E).startAt 0, .budgetExhausted 1) ∧
      ((ofWord 0xE1A0F00E).startAt 0).programCounter = 0 ∧
      (ran (ofWord 0xE1A0F00E) 0x1000 (some 1)).ending.code = 2 ∧
      budgetWarning ∈ (ran (ofWord 0xE1A0F00E) 0x1000 (some 1)).log :=
  ⟨run_return_budgetExhausted, rfl, code_ran_eq_budgetCode_iff.mpr ⟨_, _, run_return_budgetExhausted⟩,
    budgetWarning_mem_log_ran_iff.mpr ⟨_, _, run_return_budgetExhausted⟩⟩

/-- A run on a budget is as many steps, unless the program ends before. A second run goes on as one run on both
budgets would, and a budget that the program does not reach makes no difference. -/
theorem run_budget_add {first second : Nat} (counted : first + second < countLimit) :
    (∀ middle executed, emulator.run start (some first) = .ok (middle, .budgetExhausted executed) →
        executed = first ∧ Steps first (emulator.startAt start) middle ∧
          emulator.run start (some (first + second)) =
            (middle.run middle.programCounter (some second)).map
              fun (last, outcome) => (last, outcome.later first)) ∧
      (∀ last executed, emulator.run start (some first) = .ok (last, .terminated executed) →
        ∀ budget : Option Nat, (∀ limit ∈ budget, executed < limit) →
          emulator.run start budget = .ok (last, .terminated executed)) := by
  constructor
  · intro middle executed exhausted
    obtain ⟨-, (steps : Steps executed _ middle), used⟩ := run_eq_ok_iff.mp exhausted
    cases used
    refine ⟨rfl, steps, ?_⟩
    obtain ⟨fuel, split⟩ : ∃ fuel, countLimit = fuel + first := ⟨countLimit - first, by omega⟩
    calc emulator.run start (some (first + second))
      _ = runFrom (some (first + second)) fuel first middle := by
        rw [run, split, runFrom_steps steps (by simp), Nat.zero_add]
      _ = (runFrom (some second) fuel 0 middle).map fun (last, outcome) => (last, outcome.later first) := by
        rw [← runFrom_later, Nat.add_comm first second, Nat.zero_add]
      _ = _ := by
        rw [run, startAt_programCounter, split, runFrom_fuel (Nat.zero_le second) (by omega)]
  · intro last executed terminated budget within
    obtain ⟨fewer, steps, ended, -⟩ := run_eq_ok_iff.mp terminated
    exact run_eq_ok_iff.mpr ⟨fewer, steps, ended, within⟩

/-- Nothing is mapped but two instructions at 0x2000: one goes into r0, and the program returns. -/
def returnsOne (result : Word) : Emulator :=
  let loaded := ofImage ⟨.arm7, .little, false⟩
    { base := 0x2000
      size := 8
      cells := (Memory.Cells.all 0).setFrom 0x2000
        ([0xE3A00001, 0xE1A0F00E].flatMap fun word => (List.range 4).map (ByteOrder.little.byteOfWord word))
      order := .little
      fits := by decide }
  { loaded with machine := loaded.machine.write 0 result }

theorem step_setOne : ((returnsOne 0).startAt 0x2000).step =
    .ok ((returnsOne 1).startAt 0x2004, some .dataProcessing) := rfl

theorem step_returnOne : ((returnsOne 1).startAt 0x2004).step =
    .ok ((returnsOne 1).startAt 0, some .dataProcessing) := rfl

/-- Cut between the two instructions, each of the runs executes one of them. -/
theorem run_returnsOne_budget_add :
    1 + 2 < countLimit ∧
      (returnsOne 0).run 0x2000 (some 1) = .ok ((returnsOne 1).startAt 0x2004, .budgetExhausted 1) ∧
      ((returnsOne 1).startAt 0x2004).run 0x2004 (some 2) = .ok ((returnsOne 1).startAt 0, .terminated 1) ∧
      (returnsOne 0).run 0x2000 (some (1 + 2)) = .ok ((returnsOne 1).startAt 0, .terminated 2) ∧
      (returnsOne 0).run 0x2000 none = .ok ((returnsOne 1).startAt 0, .terminated 2) := by
  have counted : 1 + 2 < countLimit := by decide
  have longer : 3 + 1 < countLimit := by decide
  have start : (returnsOne 0).run 0x2000 (some 1) = .ok ((returnsOne 1).startAt 0x2004, .budgetExhausted 1) :=
    run_eq_ok_iff.mpr ⟨by decide, .cons step_setOne (.refl _), rfl⟩
  have rest : ((returnsOne 1).startAt 0x2004).run 0x2004 (some 2) =
      .ok ((returnsOne 1).startAt 0, .terminated 1) :=
    run_eq_ok_iff.mpr ⟨by decide, .cons step_returnOne (.refl _), rfl, by simp⟩
  obtain ⟨-, -, continued⟩ := (run_budget_add counted).1 _ _ start
  have whole : (returnsOne 0).run 0x2000 (some 3) = .ok ((returnsOne 1).startAt 0, .terminated 2) :=
    continued.trans (congrArg (Except.map fun (last, outcome) => (last, outcome.later 1)) rest)
  exact ⟨counted, start, rest, whole, (run_budget_add longer).2 _ _ whole none (by simp)⟩

end Emulator

end Arm32
