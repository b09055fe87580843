import Arm32.Execution.Step
import Arm32.Proofs.Encoding.Core
import Arm32.Proofs.Encoding.Vfp

/-! Any instruction against its rules: a forbidden one is refused in every state, and any other is refused by memory
alone, unless it is a branch off the word boundaries. -/

namespace Arm32

/-- Branches go by whole words. -/
theorem Instruction.branchBytes_mod_four (word : Word) : (branchBytes word).toNat % 4 = 0 := by
  have appended : (word.extractLsb' 0 24 ++ 0#2).toNat = 4 * (word.extractLsb' 0 24).toNat := by
    rw [BitVec.toNat_append, Nat.shiftLeft_eq]
    simp [Nat.mul_comm]
  have small : (word.extractLsb' 0 24 ++ 0#2).toNat < 67108864 := (word.extractLsb' 0 24 ++ 0#2).isLt
  rw [branchBytes, BitVec.toNat_signExtend, BitVec.toNat_setWidth]
  split <;> omega

theorem Instruction.offset_of_decode_branch {word offset : Word} {link : Bool}
    (decoded : decode word = .branch link offset) : offset = branchBytes word := by
  unfold decode decodeArithmetic decodeSingleTransfer decodeBlockOrBranch decodeCoprocessor at decoded
  grind

namespace Machine

variable {machine : Machine} {word offset : Word} {link : Bool}

theorem branch_misaligned (misaligned : (machine.registers.programCounter + offset + prefetch).toNat % 4 ≠ 0) :
    machine.branch link offset =
      .error (.misalignedTarget (machine.registers.programCounter + offset + prefetch)) :=
  require_bind_of_false (by simpa using misaligned)

theorem not_refused_branch (aligned : (machine.registers.programCounter + offset + prefetch).toNat % 4 = 0) :
    ¬ Refused (machine.branch link offset) := by
  rw [branch, require_bind_of_true (by simpa using aligned)]
  exact not_refused_pure _

/-- A branch lands on a word if and only if it stands on one. -/
theorem target_mod_four (decoded : Instruction.decode word = .branch link offset) :
    (machine.registers.programCounter + offset + prefetch).toNat % 4 =
      machine.registers.programCounter.toNat % 4 := by
  have wordwise : offset.toNat % 4 = 0 := by
    rw [Instruction.offset_of_decode_branch decoded]
    exact Instruction.branchBytes_mod_four word
  simp only [prefetch, BitVec.toNat_add, BitVec.reduceToNat]
  omega

theorem perform_refused {instruction : Instruction} (forbidden : instruction.isForbidden = true) :
    Refused (machine.perform word instruction) := by
  cases instruction with
  | dataProcessing fields => exact refused_dataProcessing_iff.mpr forbidden
  | psrTransfer saved op => exact refused_map.mpr (refused_psrTransfer_iff.mpr forbidden)
  | multiply fields => exact refused_map.mpr (refused_multiply_iff.mpr forbidden)
  | multiplyLong fields => exact refused_map.mpr (refused_multiplyLong_iff.mpr forbidden)
  | countLeadingZeros rd rm => exact refused_map.mpr (refused_countLeadingZeros_iff.mpr forbidden)
  | swap fields => exact refused_map.mpr (swap_refused forbidden)
  | halfwordTransfer fields => exact halfwordTransfer_refused forbidden
  | singleTransfer fields => exact singleTransfer_refused forbidden
  | blockTransfer fields => exact blockTransfer_refused forbidden
  | branch link offset => cases forbidden
  | undefined => exact refused_error _
  | coprocessor => exact refused_error _
  | vfp instruction => exact refused_map.mpr (executeVfp_refused forbidden)

theorem perform_refuses_access {instruction : Instruction} (permitted : instruction.isForbidden = false)
    (aligned : ∀ link offset, instruction = .branch link offset →
      (machine.registers.programCounter + offset + prefetch).toNat % 4 = 0) :
    RefusesOnly Refusal.IsAccess (machine.perform word instruction) := by
  cases instruction with
  | dataProcessing fields => exact .of_refused_iff refused_dataProcessing_iff permitted
  | psrTransfer saved op => exact (RefusesOnly.of_refused_iff refused_psrTransfer_iff permitted).map
  | multiply fields => exact (RefusesOnly.of_refused_iff refused_multiply_iff permitted).map
  | multiplyLong fields => exact (RefusesOnly.of_refused_iff refused_multiplyLong_iff permitted).map
  | countLeadingZeros rd rm => exact (RefusesOnly.of_refused_iff refused_countLeadingZeros_iff permitted).map
  | swap fields => exact (swap_refuses_access permitted).map
  | halfwordTransfer fields => exact halfwordTransfer_refuses_access permitted
  | singleTransfer fields => exact singleTransfer_refuses_access permitted
  | blockTransfer fields => exact blockTransfer_refuses_access permitted
  | branch link offset => exact .of_not_refused (not_refused_branch (aligned link offset rfl))
  | undefined => cases permitted
  | coprocessor => cases permitted
  | vfp instruction => exact (executeVfp_refuses_access permitted).map

theorem execute_of_holds (holds : machine.status.holds (Condition.ofWord word) = true) :
    machine.execute word = machine.perform word (Instruction.decode word) := if_pos holds

end Machine

end Arm32
