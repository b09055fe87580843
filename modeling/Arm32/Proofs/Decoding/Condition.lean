import Arm32.Proofs.Decoding.Fields
import Arm32.Proofs.Emulation.Budget
import Arm32.Proofs.Emulation.Sequence

/-! The condition guards an instruction and does nothing else. The decoder does not read its field, so an instruction
whose condition holds is the one that always executes, and one whose condition fails is passed over before anything
of it is looked at. -/

namespace Arm32

namespace Word

variable (word : Word) (code : BitVec 4)

def conditionMask : Word := 0xf0000000

/-- The word with another condition field. -/
def withCondition : Word := code ++ word.extractLsb' 0 28

/-- The word of the same instruction that always executes. -/
def always : Word := word.withCondition 0b1110

theorem withCondition_agree : Bits.AgreeOutside conditionMask (word.withCondition code) word := by
  rw [Bits.agreeOutside_iff]
  intro index clear
  by_cases body : index < 28
  · rw [withCondition, BitVec.getLsbD_append, if_pos body, BitVec.getLsbD_extractLsb', Nat.zero_add]
    simp [body]
  · by_cases field : index < 32
    · obtain rfl | rfl | rfl | rfl : index = 28 ∨ index = 29 ∨ index = 30 ∨ index = 31 := by omega
      all_goals cases clear
    · rw [BitVec.getLsbD_of_ge _ _ (Nat.le_of_not_lt field), BitVec.getLsbD_of_ge _ _ (Nat.le_of_not_lt field)]

theorem condition_withCondition : (word.withCondition code).extractLsb' 28 4 = code :=
  BitVec.extractLsb'_append_eq_left

theorem ofWord_always : Condition.ofWord word.always = .al := by
  rw [Condition.ofWord, always, condition_withCondition]
  rfl

end Word

/-! ### What the decoder tests and does not read -/

namespace Bits.AgreeOutside

variable {mask first second : Word} (agree : AgreeOutside mask first second)

include agree

theorem isMultiply (top : mask.extractLsb' 22 6 = 0) (mark : mask.extractLsb' 4 4 = 0) :
    Instruction.isMultiply first = Instruction.isMultiply second := by
  rw [Instruction.isMultiply, agree.field 22 6 top, agree.field 4 4 mark, Instruction.isMultiply]

theorem isMultiplyLong (top : mask.extractLsb' 23 5 = 0) (mark : mask.extractLsb' 4 4 = 0) :
    Instruction.isMultiplyLong first = Instruction.isMultiplyLong second := by
  rw [Instruction.isMultiplyLong, agree.field 23 5 top, agree.field 4 4 mark, Instruction.isMultiplyLong]

theorem isCountLeadingZeros (top : mask.extractLsb' 20 8 = 0) (mark : mask.extractLsb' 4 4 = 0) :
    Instruction.isCountLeadingZeros first = Instruction.isCountLeadingZeros second := by
  rw [Instruction.isCountLeadingZeros, agree.field 20 8 top, agree.field 4 4 mark, Instruction.isCountLeadingZeros]

theorem isSwap (top : mask.extractLsb' 23 5 = 0) (middle : mask.extractLsb' 20 2 = 0)
    (mark : mask.extractLsb' 4 8 = 0) : Instruction.isSwap first = Instruction.isSwap second := by
  rw [Instruction.isSwap, agree.field 23 5 top, agree.field 20 2 middle, agree.field 4 8 mark, Instruction.isSwap]

theorem isHalfwordTransfer (top : mask.extractLsb' 25 3 = 0) (upper : mask.getLsbD 7 = false)
    (lower : mask.getLsbD 4 = false) :
    Instruction.isHalfwordTransfer first = Instruction.isHalfwordTransfer second := by
  rw [Instruction.isHalfwordTransfer, agree.field 25 3 top, agree.bit 7 upper, agree.bit 4 lower,
    Instruction.isHalfwordTransfer]

theorem isPsrTransfer (top : mask.extractLsb' 23 2 = 0) (flags : mask.getLsbD 20 = false) :
    Instruction.isPsrTransfer first = Instruction.isPsrTransfer second := by
  rw [Instruction.isPsrTransfer, agree.field 23 2 top, agree.bit 20 flags, Instruction.isPsrTransfer]

end Bits.AgreeOutside

namespace Instruction

variable {first second : Word}

/-- The decoder does not read the condition. -/
theorem decode_of_agreeOutside (agree : Bits.AgreeOutside Word.conditionMask first second) :
    decode first = decode second := by
  have vfp : Vfp.Instruction.decode? first = Vfp.Instruction.decode? second := by
    simp (disch := decide) only [Vfp.Instruction.decode?, Vfp.firstField, Vfp.secondField, Vfp.destinationField,
      Vfp.opcodeField, Vfp.AddressMode.ofWord, agree.field, agree.bit]
  have shifted : ShiftedRegister.ofWord first = ShiftedRegister.ofWord second := by
    simp (disch := decide) only [ShiftedRegister.ofWord, agree.field, agree.bit]
  have psr : PsrOp.ofWord first = PsrOp.ofWord second := by
    simp (disch := decide) only [PsrOp.ofWord, agree.field, agree.bit]
  have mode : addressingOf first = addressingOf second := by
    simp (disch := decide) only [addressingOf, agree.bit]
  have multiply : multiplyOf first = multiplyOf second := by
    simp (disch := decide) only [multiplyOf, MultiplyOp.ofWord, agree.field, agree.bit]
  have multiplyLong : multiplyLongOf first = multiplyLongOf second := by
    simp (disch := decide) only [multiplyLongOf, MultiplyLongOp.ofWord, agree.field, agree.bit]
  have halfword : halfwordTransferOf first = halfwordTransferOf second := by
    simp (disch := decide) only [halfwordTransferOf, HalfwordKind.ofWord, HalfwordOffset.ofWord, mode, agree.field,
      agree.bit]
  have arithmetic : decodeArithmetic first = decodeArithmetic second := by
    simp (disch := decide) only [decodeArithmetic, agree.isMultiply, agree.isMultiplyLong, agree.isCountLeadingZeros,
      agree.isSwap, agree.isHalfwordTransfer, agree.isPsrTransfer, swapOf, dataProcessingOf, Operand2.ofWord, multiply,
      multiplyLong, halfword, psr, shifted, agree.field, agree.bit]
  have single : decodeSingleTransfer first = decodeSingleTransfer second := by
    simp (disch := decide) only [decodeSingleTransfer, singleTransferOf, TransferOffset.ofWord, shifted, mode,
      agree.field, agree.bit]
  have block : decodeBlockOrBranch first = decodeBlockOrBranch second := by
    simp (disch := decide) only [decodeBlockOrBranch, blockTransferOf, branchBytes, mode, agree.field, agree.bit]
  simp (disch := decide) only [decode, decodeCoprocessor, arithmetic, single, block, vfp, agree.field]

theorem decode_always (word : Word) : decode word.always = decode word :=
  decode_of_agreeOutside (word.withCondition_agree _)

end Instruction

/-- The refusal without the word that it quotes, if it quotes one. -/
def Refusal.unquoted : Refusal → Refusal
  | undefinedInstruction _ => .undefinedInstruction 0
  | coprocessorInstruction _ => .coprocessorInstruction 0
  | other => other

namespace Machine

variable {machine : Machine} {word : Word}

/-- What a step comes to that has fetched the word. -/
def stepOn (machine : Machine) (word : Word) : Except Refusal (Machine × InstructionClass) :=
  (machine.execute word).map fun (after, flow) => (after.advance flow, (Instruction.decode word).classOf)

theorem step_eq_stepOn (fetched : machine.fetch = .ok (some word)) :
    machine.step = (machine.stepOn word).map fun (after, classOf) => (after, some classOf) := by
  rw [step_of_some fetched, stepOn]
  cases machine.execute word <;> rfl

/-- A word is quoted by a refusal, and serves for nothing else. -/
theorem perform_unquoted (machine : Machine) (first second : Word) (instruction : Instruction) :
    (machine.perform first instruction).mapError Refusal.unquoted =
      (machine.perform second instruction).mapError Refusal.unquoted := by
  cases instruction <;> rfl

theorem execute_always (holds : machine.status.holds (Condition.ofWord word) = true) :
    (machine.execute word).mapError Refusal.unquoted = (machine.execute word.always).mapError Refusal.unquoted := by
  have alwaysHolds : machine.status.holds (Condition.ofWord word.always) = true := by
    rw [word.ofWord_always]
    rfl
  rw [execute, execute, if_pos holds, if_pos alwaysHolds, Instruction.decode_always]
  exact machine.perform_unquoted word word.always (Instruction.decode word)

theorem stepOn_always (holds : machine.status.holds (Condition.ofWord word) = true) :
    (machine.stepOn word).mapError Refusal.unquoted = (machine.stepOn word.always).mapError Refusal.unquoted := by
  have commutes (result : Except Refusal (Machine × Flow)) (next : Machine × Flow → Machine × InstructionClass) :
      (result.map next).mapError Refusal.unquoted = (result.mapError Refusal.unquoted).map next := by
    cases result <;> rfl
  rw [stepOn, stepOn, Instruction.decode_always, commutes, commutes, execute_always holds]

theorem stepOn_of_not_holds (fails : machine.status.holds (Condition.ofWord word) = false) :
    machine.stepOn word =
      .ok ({ machine with registers := machine.registers.advance instructionBytes },
        (Instruction.decode word.always).classOf) := by
  rw [stepOn, execute, if_neg (by simp [fails]), Instruction.decode_always]
  rfl

end Machine

namespace Emulator

/-- A step on a word whose condition holds is the step on the word that always executes; a step on any other goes to
the next word, whatever the word is, and does nothing else. -/
theorem step_condition (emulator : Emulator) (word : Word) :
    (emulator.machine.fetch = .ok (some word) →
        emulator.step = (emulator.machine.stepOn word).map fun (machine, classOf) =>
          ({ emulator with machine, last := emulator.traced }, some classOf)) ∧
      (Condition.ofWord word ≠ .nv → emulator.machine.status.holds (Condition.ofWord word) = true →
        (emulator.machine.execute word).mapError Refusal.unquoted =
            (emulator.machine.execute word.always).mapError Refusal.unquoted ∧
          (emulator.machine.stepOn word).mapError Refusal.unquoted =
            (emulator.machine.stepOn word.always).mapError Refusal.unquoted) ∧
      (Condition.ofWord word = .nv ∨ emulator.machine.status.holds (Condition.ofWord word) = false →
        emulator.machine.stepOn word =
          .ok ({ emulator.machine with registers := emulator.machine.registers.advance instructionBytes },
            (Instruction.decode word.always).classOf)) := by
  refine ⟨fun fetched => ?_, fun _ holds => ⟨Machine.execute_always holds, Machine.stepOn_always holds⟩,
    fun skipped => Machine.stepOn_of_not_holds ?_⟩
  · rw [step_eq_map, Machine.step_eq_stepOn fetched]
    cases emulator.machine.stepOn word <;> rfl
  · rcases skipped with never | fails
    · rw [never]
      rfl
    · exact fails

/-- Two words of the undefined group, one for equal operands and one for others. The flags say that they differ, so the
first is passed over and the second is refused, as it always is. -/
theorem step_condition_undefined :
    Instruction.decode 0x06000010 = .undefined ∧
      ((ofWord 0x06000010).startAt 0x1000).step =
        .ok ((ofWord 0x06000010).startAt 0x1004, some .undefined) ∧
      (((ofWord 0x16000010).startAt 0x1000).machine.execute 0x16000010).mapError Refusal.unquoted =
        .error (.undefinedInstruction 0) := by
  have fetched : ((ofWord 0x06000010).startAt 0x1000).machine.fetch = .ok (some 0x06000010) := rfl
  obtain ⟨stepped, -, skipped⟩ := step_condition ((ofWord 0x06000010).startAt 0x1000) 0x06000010
  obtain ⟨-, executed, -⟩ := step_condition ((ofWord 0x16000010).startAt 0x1000) 0x16000010
  have always : ((ofWord 0x16000010).startAt 0x1000).machine.execute (Word.always 0x16000010) =
      .error (.undefinedInstruction 0xE6000010) := rfl
  refine ⟨by decide, ?_, ?_⟩
  · rw [stepped fetched, skipped (.inr rfl)]
    rfl
  · rw [(executed (by decide) rfl).1, always]
    rfl

end Emulator

end Arm32
