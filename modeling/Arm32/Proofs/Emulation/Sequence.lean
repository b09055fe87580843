import Arm32.Emulator
import Arm32.Proofs.Agreement

/-! What one step can do, and sequences of steps. A step fetches a word, and carries it out if its condition holds. Two
emulators stay related for any number of steps if each step keeps them so. -/

namespace Arm32

namespace Machine

variable {machine after : Machine} {word : Word} {classOf? : Option InstructionClass}

/-- The instruction that the next step carries out: the one that is fetched, if its condition holds. -/
def performed? (machine : Machine) : Option Instruction :=
  match machine.fetch with
  | .ok (some word) =>
    if machine.status.holds (Condition.ofWord word) then some (Instruction.decode word) else none
  | _ => none

theorem step_of_error {refusal : Refusal} (fetched : machine.fetch = .error refusal) : machine.step = .error refusal := by
  rw [step, fetched]
  rfl

theorem step_of_none (fetched : machine.fetch = .ok none) : machine.step = .ok (machine, none) := by
  rw [step, fetched]
  rfl

theorem step_of_some (fetched : machine.fetch = .ok (some word)) :
    machine.step = (machine.execute word).map fun (after, flow) =>
      (after.advance flow, some (Instruction.decode word).classOf) := by
  rw [step, fetched]
  show (machine.execute word >>= _) = _
  cases machine.execute word <;> rfl

theorem step_of_holds (fetched : machine.fetch = .ok (some word))
    (holds : machine.status.holds (Condition.ofWord word) = true) :
    machine.step = (machine.perform word (Instruction.decode word)).map fun (after, flow) =>
      (after.advance flow, some (Instruction.decode word).classOf) := by
  rw [step_of_some fetched, execute, if_pos holds]

theorem step_of_not_holds (fetched : machine.fetch = .ok (some word))
    (fails : machine.status.holds (Condition.ofWord word) = false) :
    machine.step = .ok (machine.advance .next, some (Instruction.decode word).classOf) := by
  rw [step_of_some fetched, execute, if_neg (by simp [fails])]
  rfl

theorem performed?_of_holds (fetched : machine.fetch = .ok (some word))
    (holds : machine.status.holds (Condition.ofWord word) = true) :
    machine.performed? = some (Instruction.decode word) := by
  simp only [performed?, fetched, if_pos holds]

theorem exists_word_of_performed? {instruction : Instruction} (performed : machine.performed? = some instruction) :
    ∃ word, machine.fetch = .ok (some word) ∧ machine.status.holds (Condition.ofWord word) = true ∧
      Instruction.decode word = instruction := by
  unfold performed? at performed
  split at performed
  next word fetched =>
    split at performed
    next holds => exact ⟨word, fetched, holds, Option.some.inj performed⟩
    next => cases performed
  next => cases performed

/-- A step that comes to an end has found the program ended, passed over an instruction, or carried one out. -/
theorem step_cases (stepped : machine.step = .ok (after, classOf?)) :
    (machine.fetch = .ok none ∧ after = machine ∧ classOf? = none) ∨
      ∃ word, machine.fetch = .ok (some word) ∧ classOf? = some (Instruction.decode word).classOf ∧
        (after = machine.advance .next ∨
          ∃ middle flow, machine.performed? = some (Instruction.decode word) ∧
            machine.perform word (Instruction.decode word) = .ok (middle, flow) ∧ after = middle.advance flow) := by
  cases fetched : machine.fetch with
  | error refusal =>
      rw [step_of_error fetched] at stepped
      cases stepped
  | ok word? =>
      cases word? with
      | none =>
          rw [step_of_none fetched] at stepped
          cases stepped
          exact .inl ⟨rfl, rfl, rfl⟩
      | some word =>
          refine .inr ⟨word, rfl, ?_⟩
          cases holds : machine.status.holds (Condition.ofWord word) with
          | false =>
              rw [step_of_not_holds fetched holds] at stepped
              cases stepped
              exact ⟨rfl, .inl rfl⟩
          | true =>
              rw [step_of_holds fetched holds] at stepped
              cases performed : machine.perform word (Instruction.decode word) with
              | error refusal =>
                  rw [performed] at stepped
                  cases stepped
              | ok result =>
                  obtain ⟨middle, flow⟩ := result
                  rw [performed] at stepped
                  cases stepped
                  exact ⟨rfl, .inr ⟨middle, flow, performed?_of_holds fetched holds, rfl, rfl⟩⟩

end Machine

namespace Emulator

variable {emulator after : Emulator} {classOf? : Option InstructionClass}

theorem step_eq_map :
    emulator.step = emulator.machine.step.map fun (machine, classOf?) =>
      ({ emulator with machine, last := emulator.traced }, classOf?) := by
  rw [step]
  cases emulator.machine.step <;> rfl

theorem step_eq_ok_iff :
    emulator.step = .ok (after, classOf?) ↔
      ∃ machine, emulator.machine.step = .ok (machine, classOf?) ∧
        after = { emulator with machine, last := emulator.traced } := by
  rw [step_eq_map]
  cases emulator.machine.step with
  | error refusal => simp [Except.map]
  | ok result =>
      obtain ⟨machine, stepped⟩ := result
      simp only [Except.map, Except.ok.injEq, Prod.mk.injEq]
      constructor
      · rintro ⟨rfl, rfl⟩
        exact ⟨machine, ⟨rfl, rfl⟩, rfl⟩
      · rintro ⟨_, ⟨rfl, rfl⟩, rfl⟩
        exact ⟨rfl, rfl⟩

/-- So many steps, one after the other, with the class that each answers. Steps after the end of the program do nothing. -/
def stepTimes (emulator : Emulator) : Nat → Except Refusal (Emulator × List (Option InstructionClass))
  | 0 => .ok (emulator, [])
  | count + 1 => do
    let (next, classOf?) ← emulator.step
    let (last, classes) ← next.stepTimes count
    return (last, classOf? :: classes)

/-- Whether none of the instructions that so many steps carry out is of a kind. -/
def avoids (kind : Instruction → Bool) : Nat → Emulator → Bool
  | 0, _ => true
  | count + 1, emulator =>
    emulator.machine.performed?.all (!kind ·) &&
      match emulator.step with
      | .ok (next, _) => avoids kind count next
      | .error _ => true

theorem avoids_never (count : Nat) (emulator : Emulator) : avoids (fun _ => false) count emulator = true := by
  induction count generalizing emulator with
  | zero => rfl
  | succ count ih =>
      rw [avoids]
      cases emulator.step with
      | error refusal => simp
      | ok result => simp [ih result.1]

/-- Emulators whose machines are related, with the same thing to go with them. -/
def Related {α : Type} (related : Machine → Machine → Prop) (first second : Emulator × α) : Prop :=
  related first.1.machine second.1.machine ∧ first.2 = second.2

variable {related : Machine → Machine → Prop} {kind : Instruction → Bool} {first second : Emulator} {count : Nat}

theorem step_agree (agree : Agree (fun before after => related before.1 after.1 ∧ before.2 = after.2)
      first.machine.step second.machine.step) :
    Agree (Related related) first.step second.step := by
  rw [step_eq_map, step_eq_map]
  exact agree.map fun before after same => same

/-- What each step keeps, as long as it carries out nothing of a kind, a sequence of steps keeps. -/
theorem stepTimes_agree
    (keeps : ∀ {first second : Machine}, related first second →
      (∀ instruction ∈ first.performed?, kind instruction = false) →
        Agree (fun before after => related before.1 after.1 ∧ before.2 = after.2) first.step second.step)
    (start : related first.machine second.machine) (avoided : avoids kind count first = true) :
    Agree (Related related) (first.stepTimes count) (second.stepTimes count) := by
  induction count generalizing first second with
  | zero => exact .answers ⟨start, rfl⟩
  | succ count ih =>
      simp only [avoids, Bool.and_eq_true, Option.all_eq_true, Bool.not_eq_true'] at avoided
      obtain ⟨now, later⟩ := avoided
      have stepped : Agree (Related related) first.step second.step := step_agree (keeps start now)
      -- What is left to avoid is said of the first emulator only, so its step is kept in sight.
      rw [stepTimes, stepTimes]
      generalize first.step = firstStep at stepped later ⊢
      generalize second.step = secondStep at stepped ⊢
      cases stepped with
      | errors refusal => exact .errors refusal
      | @answers firstNext secondNext same =>
          obtain ⟨next, classOf?⟩ := firstNext
          obtain ⟨secondNext, _⟩ := secondNext
          obtain ⟨sameMachine, rfl⟩ : related next.machine secondNext.machine ∧ classOf? = _ := same
          refine (ih sameMachine later).bind ?_
          intro before after rest
          exact .pure ⟨rest.1, congrArg (classOf? :: ·) rest.2⟩

end Emulator

end Arm32
