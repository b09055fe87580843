import Arm32.Proofs.Encoding.Execution
import Arm32.Proofs.Encoding.VfpNotes

/-! What the notes of a disassembly tell about execution. Every error is the announcement of a refusal. An empty
list of notes promises that only memory can refuse, and keeps the promise but for transfers that update the
program counter as their base. -/

namespace Arm32

namespace Instruction

variable {instruction : Instruction} {condition : Condition}

theorem isForbidden_of_note {note : Note} (listed : note ∈ instruction.notes condition)
    (refusal : note.IsRefusal) : instruction.isForbidden = true := by
  cases instruction with
  | dataProcessing fields => exact DataProcessing.isForbidden_of_note listed refusal
  | psrTransfer saved op => exact PsrOp.isForbidden_of_note listed refusal
  | multiply fields => exact Multiply.isForbidden_of_note listed refusal
  | multiplyLong fields => exact MultiplyLong.isForbidden_of_note listed refusal
  | countLeadingZeros rd rm =>
      rcases List.mem_append.mp listed with counter | remark
      · exact (Note.mem_when.mp counter).1
      · exact absurd refusal (Condition.not_isRefusal_of_mem remark)
  | swap fields => exact Swap.isForbidden_of_note listed refusal
  | halfwordTransfer fields => exact HalfwordTransfer.isForbidden_of_note listed refusal
  | singleTransfer fields => exact SingleTransfer.isForbidden_of_note listed refusal
  | blockTransfer fields => exact BlockTransfer.isForbidden_of_note listed refusal
  | branch link offset => exact absurd refusal (Condition.not_isRefusal_of_mem listed)
  | undefined => rfl
  | coprocessor => rfl
  | vfp instruction => exact Vfp.Instruction.isForbidden_of_note listed refusal

/-- The one rule without a note everywhere. -/
theorem isForbidden_of_quiet (quiet : instruction.notes condition = [])
    (emulated : instruction ≠ .undefined ∧ instruction ≠ .coprocessor) :
    instruction.isForbidden = instruction.updatesProgramCounterBase := by
  cases instruction with
  | dataProcessing fields => exact DataProcessing.isForbidden_of_quiet quiet
  | psrTransfer saved op => exact PsrOp.isForbidden_of_quiet quiet
  | multiply fields => exact Multiply.isForbidden_of_quiet quiet
  | multiplyLong fields => exact MultiplyLong.isForbidden_of_quiet quiet
  | countLeadingZeros rd rm => exact Note.when_eq_nil.mp (List.append_eq_nil_iff.mp quiet).1
  | swap fields => exact Swap.isForbidden_of_quiet quiet
  | halfwordTransfer fields =>
      obtain ⟨swap, offset, signedStore, single⟩ := HalfwordTransfer.rules_of_quiet quiet
      simp [isForbidden, HalfwordTransfer.isForbidden, Addressing.isForbidden, updatesProgramCounterBase,
        swap, offset, signedStore, single]
  | singleTransfer fields =>
      obtain ⟨offset, single⟩ := SingleTransfer.rules_of_quiet quiet
      simp [isForbidden, SingleTransfer.isForbidden, Addressing.isForbidden, updatesProgramCounterBase,
        offset, single]
  | blockTransfer fields => exact BlockTransfer.isForbidden_of_quiet quiet
  | branch link offset => rfl
  | undefined => exact absurd rfl emulated.1
  | coprocessor => exact absurd rfl emulated.2
  | vfp instruction => exact Vfp.Instruction.isForbidden_of_quiet quiet

theorem exists_of_classOf_branch (isBranch : instruction.classOf = .branch) :
    ∃ link offset, instruction = .branch link offset := by
  cases instruction <;> cases isBranch
  exact ⟨_, _, rfl⟩

end Instruction

namespace Machine

variable {machine : Machine} {word : Word}

theorem perform_programCounterBase {instruction : Instruction} {condition : Condition}
    (quiet : instruction.notes condition = []) (updates : instruction.updatesProgramCounterBase = true) :
    machine.perform word instruction = .error .writeBackToProgramCounter := by
  cases instruction <;> simp only [Instruction.updatesProgramCounterBase, Bool.false_eq_true,
    Bool.and_eq_true, beq_iff_eq] at updates
  case singleTransfer fields =>
    obtain ⟨offset, single⟩ := SingleTransfer.rules_of_quiet quiet
    exact singleTransfer_programCounter updates.2 offset updates.1 single
  case halfwordTransfer fields =>
    obtain ⟨swap, offset, -, single⟩ := HalfwordTransfer.rules_of_quiet quiet
    exact halfwordTransfer_programCounter updates.2 swap offset updates.1 single

/-- An error in the notes, but for the one about an empty list, announces a refusal in every state in which the
condition holds. -/
theorem execute_refused_of_error_note {settings : ListingSettings} {note : Note}
    (listed : note ∈ (disassemble settings word).notes) (error : "ERROR:".toList <+: note.text.toList)
    (other : note.text ≠ "ERROR: no registers to load/store")
    (holds : machine.status.holds (Condition.ofWord word) = true) :
    ∃ refusal, machine.execute word = .error refusal := by
  have refusal : note.IsRefusal := Note.isRefusal_iff_text.mpr ⟨error, other⟩
  rw [execute_of_holds holds]
  exact perform_refused (Instruction.isForbidden_of_note listed refusal)

/-- A page of zeros at 0x1000, where registers 0 and 1 point. -/
def onBlankPage : Machine :=
  ((ofImage .arm7 { base := 0x1000, size := 0x100, cells := .all 0, order := .little, fits := by decide }).write
    0 0x1000).write 1 0x1000

/-- A list of eight slots from slot 30 on, loaded from memory that is mapped. -/
theorem execute_refused_of_list_past_last_slot :
    Note.listPastLastSlot ∈ (disassemble ⟨.arm7, .little, false⟩ 0xECB0FA08).notes ∧
      ∃ refusal, onBlankPage.execute 0xECB0FA08 = .error refusal := by
  have listed : Note.listPastLastSlot ∈ (disassemble ⟨.arm7, .little, false⟩ 0xECB0FA08).notes := by decide
  exact ⟨listed, execute_refused_of_error_note listed (by decide) (by decide) (by decide)⟩

/-- Without notes, only memory refuses, exactly if the word does not update the program counter as its base. Where it
does, that is the refusal. A branch is refused off the word boundaries too, but no word is fetched there. -/
theorem execute_without_notes {settings : ListingSettings}
    (quiet : (disassemble settings word).noteLine = "")
    (emulated : (disassemble settings word).classOf ≠ .undefined ∧
      (disassemble settings word).classOf ≠ .coprocessor)
    (holds : machine.status.holds (Condition.ofWord word) = true) :
    ((∀ refusal, machine.execute word = .error refusal → ∃ fault, refusal = .access fault) ↔
      (Instruction.decode word).updatesProgramCounterBase = false ∧
        ((Instruction.decode word).classOf = .branch → machine.registers.programCounter.toNat % 4 = 0)) ∧
      ((Instruction.decode word).updatesProgramCounterBase = true →
        machine.execute word = .error .writeBackToProgramCounter) := by
  have silent : (Instruction.decode word).notes (Condition.ofWord word) = [] := Note.line_eq_empty_iff.mp quiet
  have known : Instruction.decode word ≠ .undefined ∧ Instruction.decode word ≠ .coprocessor :=
    ⟨fun same => emulated.1 (congrArg Instruction.classOf same),
      fun same => emulated.2 (congrArg Instruction.classOf same)⟩
  have forbidden := Instruction.isForbidden_of_quiet silent known
  rw [execute_of_holds holds]
  have refused (updates : (Instruction.decode word).updatesProgramCounterBase = true) :
      machine.perform word (Instruction.decode word) = .error .writeBackToProgramCounter :=
    perform_programCounterBase silent updates
  refine ⟨⟨fun access => ⟨?_, fun isBranch => ?_⟩, fun ⟨keeps, aligned⟩ => ?_⟩, refused⟩
  · cases updates : (Instruction.decode word).updatesProgramCounterBase with
    | false => rfl
    | true =>
        obtain ⟨fault, impossible⟩ := access _ (refused updates)
        cases impossible
  · obtain ⟨link, offset, decoded⟩ := Instruction.exists_of_classOf_branch isBranch
    rw [← target_mod_four decoded]
    by_cases aligned : (machine.registers.programCounter + offset + prefetch).toNat % 4 = 0
    · exact aligned
    · rw [decoded] at access
      obtain ⟨fault, impossible⟩ := access _ (branch_misaligned aligned)
      cases impossible
  · refine perform_refuses_access (forbidden.trans keeps) fun link offset decoded => ?_
    rw [target_mod_four decoded]
    exact aligned (congrArg Instruction.classOf decoded)

/-- A load has no notes, and no rule that it could break. -/
theorem execute_load_without_notes :
    (disassemble ⟨.arm7, .little, false⟩ 0xE5910000).noteLine = "" ∧
      ∀ refusal, onBlankPage.execute 0xE5910000 = .error refusal → ∃ fault, refusal = .access fault := by
  have quiet : (disassemble ⟨.arm7, .little, false⟩ 0xE5910000).noteLine = "" := by decide
  exact ⟨quiet, (execute_without_notes quiet (by decide) (by decide)).1.mpr (by decide)⟩

/-- A load from eight bytes below an address that reads eight bytes ahead has no note either, although it updates
the program counter. From four bytes below it has one. -/
theorem execute_refused_without_notes :
    (disassemble ⟨.arm7, .little, false⟩ 0xE53F0008).noteLine = "" ∧
      (disassemble ⟨.arm7, .little, false⟩ 0xE53F0008).classOf = .singleTransfer ∧
      onBlankPage.status.holds (Condition.ofWord 0xE53F0008) = true ∧
      onBlankPage.execute 0xE53F0008 = .error .writeBackToProgramCounter ∧
      (∀ fault, Refusal.writeBackToProgramCounter ≠ .access fault) ∧
      (disassemble ⟨.arm7, .little, false⟩ 0xE53F0004).noteLine = "ERROR: write-back to R15 is not allowed" :=
  ⟨by decide, by decide, by decide, rfl, (fun _ same => by cases same), by decide⟩

end Machine

end Arm32
