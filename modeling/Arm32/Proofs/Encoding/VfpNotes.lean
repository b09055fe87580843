import Arm32.Proofs.Encoding.Notes

/-! The notes of floating-point instructions against their rules, where each rule has a note. -/

namespace Arm32.Vfp

variable {condition : Condition} {note : Note}

theorem DataProcessing.isForbidden_of_note {fields : DataProcessing} (listed : note ∈ fields.notes condition)
    (refusal : note.IsRefusal) : fields.isForbidden = true := by
  unfold notes at listed
  unfold isForbidden
  split at listed
  · simp [*]
  · simp [*]
  · exact absurd refusal (Condition.not_isRefusal_of_mem listed)

theorem LoadStore.multiple_of_note {fields : LoadStore} {writeBack : Bool}
    (listed : note ∈ fields.multipleNotes writeBack condition) (refusal : note.IsRefusal) :
    32 < fields.firstSlot + fields.offset.toNat ∨ (writeBack && fields.rn == Reg.pc) = true := by
  simp only [multipleNotes, List.mem_append, Note.mem_when] at listed
  rcases listed with ((⟨base, -⟩ | remark) | ⟨past, -⟩) | ⟨-, rfl⟩
  · exact .inr base
  · exact absurd refusal (Condition.not_isRefusal_of_mem remark)
  · exact .inl (of_decide_eq_true past)
  · exact absurd rfl refusal.2

theorem LoadStore.isForbidden_of_note {fields : LoadStore} (listed : note ∈ fields.notes condition)
    (refusal : note.IsRefusal) : fields.isForbidden = true := by
  unfold notes at listed
  unfold isForbidden
  cases mode : fields.mode <;> rw [mode] at listed
  case positiveOffset | negativeOffset => exact absurd refusal (Condition.not_isRefusal_of_mem listed)
  all_goals simpa using multiple_of_note listed refusal

theorem RegisterTransfer.isForbidden_of_note {fields : RegisterTransfer} (listed : note ∈ fields.notes condition)
    (refusal : note.IsRefusal) : fields.isForbidden = true := by
  unfold notes at listed
  unfold isForbidden
  cases flagMove : fields.isFlagMove with
  | true =>
      rw [flagMove, if_pos rfl, List.mem_append, Note.mem_when] at listed
      rcases listed with ⟨other, -⟩ | remark
      · exact other
      · exact absurd refusal (Condition.not_isRefusal_of_mem remark)
  | false =>
      simp only [flagMove, Bool.false_eq_true, if_false, List.mem_append, Note.mem_when] at listed
      simp only [Bool.false_eq_true, if_false, Bool.or_eq_true]
      rcases listed with (⟨counter, -⟩ | ⟨unknown, -⟩) | listed
      · exact .inl (.inl counter)
      · exact .inl (.inr unknown)
      · right
        split at listed
        · simp [*]
        · exact absurd refusal (Condition.not_isRefusal_of_mem listed)

theorem Instruction.isForbidden_of_note {instruction : Instruction}
    (listed : note ∈ instruction.notes condition) (refusal : note.IsRefusal) : instruction.isForbidden = true := by
  cases instruction with
  | dataProcessing fields => exact DataProcessing.isForbidden_of_note listed refusal
  | loadStore fields => exact LoadStore.isForbidden_of_note listed refusal
  | registerTransfer fields => exact RegisterTransfer.isForbidden_of_note listed refusal

/-! ### An instruction without notes -/

theorem DataProcessing.isForbidden_of_quiet {fields : DataProcessing} (quiet : fields.notes condition = []) :
    fields.isForbidden = false := by
  unfold notes at quiet
  unfold isForbidden
  split at quiet
  · cases quiet
  · cases quiet
  · simp [*]

theorem LoadStore.multiple_of_quiet {fields : LoadStore} {writeBack : Bool}
    (quiet : fields.multipleNotes writeBack condition = []) :
    fields.firstSlot + fields.offset.toNat ≤ 32 ∧ (writeBack && fields.rn == Reg.pc) = false := by
  simp only [multipleNotes, List.append_eq_nil_iff, Note.when_eq_nil] at quiet
  obtain ⟨⟨⟨base, -⟩, past⟩, -⟩ := quiet
  exact ⟨Nat.le_of_not_lt (of_decide_eq_false past), base⟩

theorem LoadStore.isForbidden_of_quiet {fields : LoadStore} (quiet : fields.notes condition = []) :
    fields.isForbidden = false := by
  unfold notes at quiet
  unfold isForbidden
  cases mode : fields.mode <;> rw [mode] at quiet
  case undefined mode => cases quiet
  all_goals simpa using multiple_of_quiet quiet

theorem RegisterTransfer.isForbidden_of_quiet {fields : RegisterTransfer} (quiet : fields.notes condition = []) :
    fields.isForbidden = false := by
  unfold notes at quiet
  unfold isForbidden
  cases flagMove : fields.isFlagMove with
  | true =>
      rw [flagMove, if_pos rfl, List.append_eq_nil_iff, Note.when_eq_nil] at quiet
      exact quiet.1
  | false =>
      simp only [flagMove, Bool.false_eq_true, if_false, List.append_eq_nil_iff, Note.when_eq_nil] at quiet
      obtain ⟨⟨counter, unknown⟩, listed⟩ := quiet
      simp only [counter, unknown, Bool.false_eq_true, if_false, Bool.false_or]
      split at listed
      · cases listed
      · simp [*]

theorem Instruction.isForbidden_of_quiet {instruction : Instruction}
    (quiet : instruction.notes condition = []) : instruction.isForbidden = false := by
  cases instruction with
  | dataProcessing fields => exact DataProcessing.isForbidden_of_quiet quiet
  | loadStore fields => exact LoadStore.isForbidden_of_quiet quiet
  | registerTransfer fields => exact RegisterTransfer.isForbidden_of_quiet quiet

end Arm32.Vfp
