import Arm32.Disassembly.Basic
import Arm32.Proofs.Encoding.Forbidden

/-! The notes of an instruction against its rules. An error is noted of forbidden instructions only, but for the
one about an empty list. The other way round one rule goes unnoted in part, the one that keeps the program counter
from being updated as a base. -/

namespace Arm32

namespace Note

variable {note : Note} {reason : Bool}

theorem mem_when {other : Note} : note ∈ Note.when reason other ↔ reason = true ∧ note = other := by
  cases reason <;> simp [Note.when]

theorem when_eq_nil : Note.when reason note = [] ↔ reason = false := by
  cases reason <;> simp [Note.when]

/-- A note that stands for an encoding which execution refuses. -/
def IsRefusal (note : Note) : Prop := note.severity = .error ∧ note ≠ .emptyList

theorem text_toList (note : Note) : note.text.toList = note.severity.mark.toList ++ note.content.toList :=
  String.toList_append

theorem severity_eq_remark_iff : note.severity = .remark ↔ note = .neverCondition := by
  cases note <;> simp [severity]

theorem severity_eq_error_iff : note.severity = .error ↔ "ERROR:".toList <+: note.text.toList := by
  rw [text_toList]
  cases severity : note.severity with
  | remark =>
      rw [severity_eq_remark_iff.mp severity]
      decide
  | warning => simp [Severity.mark]
  | error => simp [Severity.mark]

theorem isRefusal_iff_text :
    note.IsRefusal ↔ "ERROR:".toList <+: note.text.toList ∧ note.text ≠ "ERROR: no registers to load/store" := by
  have named : note.text = "ERROR: no registers to load/store" ↔ note = .emptyList := by
    cases note <;> simp [text, content, severity, Severity.mark]
  rw [IsRefusal, severity_eq_error_iff, Ne, Ne, named]

theorem text_ne_empty (note : Note) : note.text ≠ "" := by
  cases severity : note.severity with
  | remark =>
      rw [severity_eq_remark_iff.mp severity]
      decide
  | warning => simp [text, severity, Severity.mark]
  | error => simp [text, severity, Severity.mark]

theorem line_eq_empty_iff {notes : List Note} : line notes = "" ↔ notes = [] := by
  match notes with
  | [] => simp [line]
  | [note] => simp [line, text_ne_empty]
  | first :: second :: rest => simp [line, text_ne_empty]

end Note

theorem Condition.not_isRefusal_of_mem {condition : Condition} {note : Note} (listed : note ∈ condition.notes) :
    ¬ note.IsRefusal := by
  obtain ⟨-, rfl⟩ := Note.mem_when.mp listed
  rintro ⟨error, -⟩
  cases error

/-! ### Errors are noted of forbidden instructions -/

section Errors

variable {condition : Condition} {note : Note}

theorem ShiftedRegister.isForbidden_of_note {operand : ShiftedRegister} (listed : note ∈ operand.notes) :
    operand.isForbidden = true := by
  unfold notes at listed
  split at listed
  · simp at listed
  · rename_i rs reserved amount
    simp only [List.mem_append, Note.mem_when] at listed
    rw [isForbidden, amount, ShiftAmount.isForbidden, Bool.or_eq_true]
    rcases listed with ⟨counter, -⟩ | ⟨bit, -⟩
    · exact .inl counter
    · exact .inr bit

theorem Operand2.isForbidden_of_note {operand : Operand2} (listed : note ∈ operand.notes) :
    operand.isForbidden = true := by
  cases operand with
  | immediate base rotate => simp [notes] at listed
  | register operand => exact ShiftedRegister.isForbidden_of_note listed

theorem DataProcessing.isForbidden_of_note {fields : DataProcessing} (listed : note ∈ fields.notes condition)
    (refusal : note.IsRefusal) : fields.isForbidden = true := by
  simp only [notes, List.mem_append, Note.mem_when] at listed
  rcases listed with ((remark | ⟨-, rfl⟩) | ⟨broken, -⟩) | operand
  · exact absurd refusal (Condition.not_isRefusal_of_mem remark)
  · cases refusal.1
  · simp only [Bool.and_eq_true, Bool.not_eq_true'] at broken
    simp [isForbidden, broken]
  · rw [isForbidden, Operand2.isForbidden_of_note operand, Bool.or_true]

theorem PsrOp.isForbidden_of_note {op : PsrOp} {saved : Bool} (listed : note ∈ op.notes saved condition)
    (refusal : note.IsRefusal) : op.isForbidden = true := by
  have remarked (remark : note ∈ condition.notes) : op.isForbidden = true :=
    absurd refusal (Condition.not_isRefusal_of_mem remark)
  unfold notes at listed
  rcases List.mem_append.mp listed with saved | listed
  · obtain ⟨-, rfl⟩ := Note.mem_when.mp saved
    cases refusal.1
  · match op with
    | read rd =>
        rcases List.mem_append.mp listed with counter | remark
        · exact (Note.mem_when.mp counter).1
        · exact remarked remark
    | write rm =>
        rcases List.mem_append.mp listed with counter | remark
        · exact (Note.mem_when.mp counter).1
        · exact remarked remark
    | writeFlags (.immediate field) => exact remarked listed
    | writeFlags (.register rm) =>
        rcases List.mem_append.mp listed with remark | counter
        · exact remarked remark
        · exact (Note.mem_when.mp counter).1
    | undefined => rfl

theorem Multiply.isForbidden_of_note {fields : Multiply} (listed : note ∈ fields.notes condition)
    (refusal : note.IsRefusal) : fields.isForbidden = true := by
  simp only [notes, List.mem_append, Note.mem_when] at listed
  rcases listed with ((⟨overlap, -⟩ | ⟨counter, -⟩) | remark) | ⟨addend, -⟩
  · rw [isForbidden, overlap, Bool.true_or, Bool.true_or]
  · rw [isForbidden, counter, Bool.or_true, Bool.true_or]
  · exact absurd refusal (Condition.not_isRefusal_of_mem remark)
  · rw [isForbidden, addend, Bool.or_true]

theorem MultiplyLong.isForbidden_of_note {fields : MultiplyLong} (listed : note ∈ fields.notes condition)
    (refusal : note.IsRefusal) : fields.isForbidden = true := by
  simp only [notes, List.mem_append, Note.mem_when] at listed
  rcases listed with ((⟨overlap, -⟩ | ⟨one, -⟩) | ⟨counter, -⟩) | remark
  · rw [isForbidden, overlap, Bool.true_or, Bool.true_or]
  · rw [isForbidden, one, Bool.or_true, Bool.true_or]
  · rw [isForbidden, counter, Bool.or_true]
  · exact absurd refusal (Condition.not_isRefusal_of_mem remark)

theorem Swap.isForbidden_of_note {fields : Swap} (listed : note ∈ fields.notes condition)
    (refusal : note.IsRefusal) : fields.isForbidden = true := by
  simp only [notes, List.mem_append, Note.mem_when] at listed
  rcases listed with ⟨counter, -⟩ | remark
  · exact counter
  · exact absurd refusal (Condition.not_isRefusal_of_mem remark)

theorem Addressing.isForbidden_of_note {mode : Addressing} {rn : Reg} {offset : Word}
    (listed : note ∈ mode.immediateNotes rn offset) : mode.isForbidden rn = true := by
  obtain ⟨writeBack, -⟩ := Note.mem_when.mp listed
  simp only [Bool.and_eq_true] at writeBack
  simp [isForbidden, updatesBase, writeBack]

theorem SingleTransfer.isForbidden_of_note {fields : SingleTransfer} (listed : note ∈ fields.notes condition)
    (refusal : note.IsRefusal) : fields.isForbidden = true := by
  simp only [notes, List.mem_append, Note.mem_when] at listed
  rcases listed with (remark | ⟨-, rfl⟩) | listed
  · exact absurd refusal (Condition.not_isRefusal_of_mem remark)
  · cases refusal.1
  · rw [isForbidden, Bool.or_eq_true]
    cases offset : fields.offset with
    | immediate offset' =>
        rw [offset] at listed
        exact .inr (Addressing.isForbidden_of_note listed)
    | register operand =>
        rw [offset] at listed
        simp only [List.mem_append, Note.mem_when] at listed
        rw [TransferOffset.isForbidden, Bool.or_eq_true]
        rcases listed with (⟨shifted, -⟩ | ⟨counter, -⟩) | listed
        · exact .inl (.inl shifted)
        · exact .inl (.inr counter)
        · have forbidden := ShiftedRegister.isForbidden_of_note listed
          cases amount : operand.amount with
          | immediate places => simp [ShiftedRegister.isForbidden, ShiftAmount.isForbidden, amount] at forbidden
          | register rs reserved => exact .inl (.inl rfl)

theorem HalfwordTransfer.isForbidden_of_note {fields : HalfwordTransfer}
    (listed : note ∈ fields.notes condition) (refusal : note.IsRefusal) : fields.isForbidden = true := by
  simp only [notes, List.mem_append, Note.mem_when] at listed
  simp only [isForbidden, Bool.or_eq_true]
  rcases listed with (((((⟨swap, -⟩ | remark) | ⟨signed, -⟩) | ⟨unsigned, -⟩) | ⟨signed, -⟩) | ⟨post, -⟩) | listed
  · exact .inl (.inl (.inl swap))
  · exact absurd refusal (Condition.not_isRefusal_of_mem remark)
  · exact .inr (Bool.and_eq_true_iff.mp signed).1
  · have swap : (fields.kind == .swap) = true := by
      cases kind : fields.kind <;> simp [kind, HalfwordKind.isHalfword, HalfwordKind.isSigned] at unsigned ⊢
    exact .inl (.inl (.inl swap))
  · exact .inr (Bool.and_eq_true_iff.mp signed).1
  · exact .inl (.inr (by simp only [Addressing.isForbidden, post, Bool.true_or]))
  · cases offset : fields.offset with
    | immediate offset' =>
        rw [offset] at listed
        exact .inl (.inr (Addressing.isForbidden_of_note listed))
    | register rm =>
        rw [offset] at listed
        exact .inl (.inl (.inr (Note.mem_when.mp listed).1))

theorem BlockTransfer.isForbidden_of_note {fields : BlockTransfer} (listed : note ∈ fields.notes condition)
    (refusal : note.IsRefusal) : fields.isForbidden = true := by
  simp only [notes, List.mem_append, Note.mem_when] at listed
  simp only [isForbidden, Bool.or_eq_true]
  rcases listed with ((((⟨privileged, -⟩ | ⟨base, -⟩) | ⟨counter, -⟩) | ⟨ownBase, -⟩) | remark) | ⟨-, rfl⟩
  · exact .inl (.inl privileged)
  · exact .inl (.inr base)
  · exact .inr (by simp_all)
  · exact .inr (by simp_all)
  · exact absurd refusal (Condition.not_isRefusal_of_mem remark)
  · exact absurd rfl refusal.2

end Errors

/-! ### An instruction without notes -/

section Quiet

variable {condition : Condition}

theorem ShiftedRegister.isForbidden_of_quiet {operand : ShiftedRegister} (quiet : operand.notes = []) :
    operand.isForbidden = false := by
  unfold notes at quiet
  split at quiet
  · rename_i places amount
    rw [isForbidden, amount, ShiftAmount.isForbidden]
  · rename_i rs reserved amount
    rw [List.append_eq_nil_iff, Note.when_eq_nil, Note.when_eq_nil] at quiet
    rw [isForbidden, amount, ShiftAmount.isForbidden, quiet.1, quiet.2, Bool.or_false]

theorem DataProcessing.isForbidden_of_quiet {fields : DataProcessing} (quiet : fields.notes condition = []) :
    fields.isForbidden = false := by
  simp only [notes, List.append_eq_nil_iff, Note.when_eq_nil] at quiet
  obtain ⟨⟨⟨-, test⟩, counter⟩, operand⟩ := quiet
  have second : fields.operand.isForbidden = false := by
    cases second : fields.operand with
    | immediate base rotate => rfl
    | register operand' =>
        rw [second] at operand
        exact ShiftedRegister.isForbidden_of_quiet operand
  rw [isForbidden, second, Bool.or_false]
  cases isTest : fields.op.isTest <;> simp_all

theorem PsrOp.isForbidden_of_quiet {op : PsrOp} {saved : Bool} (quiet : op.notes saved condition = []) :
    op.isForbidden = false := by
  have listed := (List.append_eq_nil_iff.mp quiet).2
  match op with
  | read rd => exact Note.when_eq_nil.mp (List.append_eq_nil_iff.mp listed).1
  | write rm => exact Note.when_eq_nil.mp (List.append_eq_nil_iff.mp listed).1
  | writeFlags (.immediate field) => rfl
  | writeFlags (.register rm) => exact Note.when_eq_nil.mp (List.append_eq_nil_iff.mp listed).2
  | undefined => cases listed

theorem Multiply.isForbidden_of_quiet {fields : Multiply} (quiet : fields.notes condition = []) :
    fields.isForbidden = false := by
  simp only [notes, List.append_eq_nil_iff, Note.when_eq_nil] at quiet
  obtain ⟨⟨⟨overlap, counter⟩, -⟩, addend⟩ := quiet
  rw [isForbidden, overlap, counter, addend, Bool.or_false, Bool.or_false]

theorem MultiplyLong.isForbidden_of_quiet {fields : MultiplyLong} (quiet : fields.notes condition = []) :
    fields.isForbidden = false := by
  simp only [notes, List.append_eq_nil_iff, Note.when_eq_nil] at quiet
  obtain ⟨⟨⟨overlap, one⟩, counter⟩, -⟩ := quiet
  rw [isForbidden, overlap, one, counter, Bool.or_false, Bool.or_false]

theorem Swap.isForbidden_of_quiet {fields : Swap} (quiet : fields.notes condition = []) :
    fields.isForbidden = false :=
  Note.when_eq_nil.mp (List.append_eq_nil_iff.mp quiet).1

/-- What an empty list of notes says of a single transfer. The base is only looked at where an offset is
printed, so it may still be the program counter. -/
theorem SingleTransfer.rules_of_quiet {fields : SingleTransfer} (quiet : fields.notes condition = []) :
    fields.offset.isForbidden = false ∧ (fields.mode.indexing == .post && fields.mode.writeBack) = false := by
  simp only [notes, List.append_eq_nil_iff, Note.when_eq_nil] at quiet
  obtain ⟨⟨-, single⟩, listed⟩ := quiet
  refine ⟨?_, single⟩
  cases offset : fields.offset with
  | immediate offset' => rfl
  | register operand =>
      rw [offset] at listed
      simp only [List.append_eq_nil_iff, Note.when_eq_nil] at listed
      rw [TransferOffset.isForbidden, listed.1.1, listed.1.2, Bool.or_false]

theorem HalfwordTransfer.rules_of_quiet {fields : HalfwordTransfer} (quiet : fields.notes condition = []) :
    fields.kind ≠ .swap ∧ fields.offset.isForbidden = false ∧
      (fields.transfer == .store && fields.kind.isSigned) = false ∧
      (fields.mode.indexing == .post && fields.mode.writeBack) = false := by
  simp only [notes, List.append_eq_nil_iff, Note.when_eq_nil] at quiet
  obtain ⟨⟨⟨⟨⟨⟨swap, -⟩, halfword⟩, -⟩, byte⟩, single⟩, listed⟩ := quiet
  refine ⟨by simpa using swap, ?_, ?_, single⟩
  · cases offset : fields.offset with
    | immediate offset' => rfl
    | register rm =>
        rw [offset] at listed
        exact Note.when_eq_nil.mp listed
  · cases signed : (fields.transfer == .store && fields.kind.isSigned) <;>
      cases isHalfword : fields.kind.isHalfword <;> simp_all

theorem BlockTransfer.isForbidden_of_quiet {fields : BlockTransfer} (quiet : fields.notes condition = []) :
    fields.isForbidden = false := by
  simp only [notes, List.append_eq_nil_iff, Note.when_eq_nil] at quiet
  obtain ⟨⟨⟨⟨⟨privileged, base⟩, counter⟩, ownBase⟩, -⟩, -⟩ := quiet
  rw [isForbidden, privileged, base, Bool.and_or_distrib_left, counter, ← Bool.and_assoc, ownBase]
  rfl

end Quiet

end Arm32
