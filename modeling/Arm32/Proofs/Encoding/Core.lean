import Arm32.Execution.DataProcessing
import Arm32.Execution.Transfer
import Arm32.Proofs.Encoding.Forbidden
import Arm32.Proofs.Refusals

/-! Core instructions against their rules. One that only computes in registers is refused exactly when it is
forbidden. One that goes to memory is refused when it is forbidden, and otherwise by memory alone. -/

namespace Arm32

namespace Machine

variable {machine : Machine}

theorem refused_shifted_iff {operand : ShiftedRegister} :
    Refused (machine.shifted operand) ↔ operand.isForbidden = true := by
  cases amount : operand.amount with
  | immediate places => simp [shifted, ShiftedRegister.isForbidden, ShiftAmount.isForbidden, amount]
  | register rs reserved => simp [shifted, ShiftedRegister.isForbidden, ShiftAmount.isForbidden, amount]

theorem refused_operand2_iff {operand : Operand2} :
    Refused (machine.operand2 operand) ↔ operand.isForbidden = true := by
  cases operand with
  | immediate base rotate => simp [operand2, Operand2.isForbidden]
  | register operand => exact refused_shifted_iff

theorem refused_checkFlagBit_iff {fields : DataProcessing} :
    Refused (checkFlagBit fields) ↔
      (if fields.op.isTest then !fields.setFlags else fields.setFlags && fields.rd == Reg.pc) = true := by
  unfold checkFlagBit
  split <;> simp

theorem refused_dataProcessing_iff {fields : DataProcessing} :
    Refused (machine.dataProcessing fields) ↔ fields.isForbidden = true := by
  unfold dataProcessing
  rw [refused_bind_iff fun _ => refused_bind_of_answers fun second => ?_]
  · rw [refused_checkFlagBit_iff, refused_operand2_iff, DataProcessing.isForbidden, Bool.or_eq_true]
  · cases fields.op.isTest <;> simp

theorem refused_psrTransfer_iff {op : PsrOp} :
    Refused (machine.psrTransfer op) ↔ op.isForbidden = true := by
  cases op with
  | read rd => simp [psrTransfer, PsrOp.isForbidden]
  | write rm => simp [psrTransfer, flagRegister, PsrOp.isForbidden]
  | writeFlags source => cases source <;> simp [psrTransfer, flagRegister, PsrOp.isForbidden]
  | undefined => simp [psrTransfer, PsrOp.isForbidden]

theorem refused_multiply_iff {fields : Multiply} :
    Refused (machine.multiply fields) ↔ fields.isForbidden = true := by
  have addend : (fields.op == .mla) = !(fields.op == .mul) := by cases fields.op <;> rfl
  simp only [multiply, Multiply.isForbidden, refused_require_bind, not_refused_pure, or_false,
    List.all_bne', Bool.or_eq_true, addend]
  grind

theorem refused_multiplyLong_iff {fields : MultiplyLong} :
    Refused (machine.multiplyLong fields) ↔ fields.isForbidden = true := by
  simp only [multiplyLong, MultiplyLong.isForbidden, refused_require_bind, not_refused_pure, or_false,
    List.all_bne', Bool.or_eq_true]
  grind

theorem refused_countLeadingZeros_iff {rd rm : Reg} :
    Refused (machine.countLeadingZeros rd rm) ↔ (rd == Reg.pc || rm == Reg.pc) = true := by
  simp only [countLeadingZeros, refused_require_bind, not_refused_pure, or_false]
  grind

theorem swap_refused {fields : Swap} (forbidden : fields.isForbidden = true) :
    Refused (machine.swap fields) := by
  have broken : [fields.rn, fields.rd, fields.rm].all (· != Reg.pc) = false := by
    rw [List.all_bne', Bool.not_eq_false']
    exact forbidden
  rw [swap, require_bind_of_false broken]
  exact refused_error _

theorem swap_refuses_access {fields : Swap} (permitted : fields.isForbidden = false) :
    RefusesOnly Refusal.IsAccess (machine.swap fields) := by
  have kept : [fields.rn, fields.rd, fields.rm].all (· != Reg.pc) = true := by
    rw [List.all_bne', Bool.not_eq_true']
    exact permitted
  rw [swap, require_bind_of_true kept]
  cases fields.quantity with
  | byte =>
      refine .bind (machine.loadByte_refuses_access _) fun loaded => ?_
      exact .bind (machine.storeByte_refuses_access _ _) fun after => refusesOnly_pure _
  | word =>
      refine .bind (machine.loadWord_refuses_access _) fun loaded => ?_
      exact .bind (machine.storeWord_refuses_access _ _) fun after => refusesOnly_pure _

/-! ### Addresses and offsets -/

theorem refused_transferAddress_iff {mode : Addressing} {rn : Reg} {amount : Word} :
    Refused (machine.transferAddress mode rn amount) ↔ mode.isForbidden rn = true := by
  cases indexing : mode.indexing <;> cases writeBack : mode.writeBack <;>
    simp [transferAddress, Addressing.isForbidden, Addressing.updatesBase, indexing, writeBack]

/-- Of the rules for updating the base, the one about the program counter is looked at last. -/
theorem transferAddress_programCounter {mode : Addressing} {amount : Word}
    (updates : mode.updatesBase = true) (single : (mode.indexing == .post && mode.writeBack) = false) :
    machine.transferAddress mode Reg.pc amount = .error .writeBackToProgramCounter := by
  cases indexing : mode.indexing with
  | pre =>
      have writeBack : mode.writeBack = true := by simpa [Addressing.updatesBase, indexing] using updates
      simp [transferAddress, indexing, writeBack, require, bind, Except.bind]
  | post =>
      have keeps : mode.writeBack = false := by simpa [indexing] using single
      simp [transferAddress, indexing, keeps, require, bind, Except.bind]

theorem refused_transferOffset_iff {offset : TransferOffset} :
    Refused (machine.transferOffset offset) ↔ offset.isForbidden = true := by
  cases offset with
  | immediate offset => simp [transferOffset, TransferOffset.isForbidden]
  | register operand =>
      cases amount : operand.amount with
      | immediate places =>
          simp [transferOffset, TransferOffset.isForbidden, ShiftAmount.isRegister, refused_shifted_iff,
            ShiftedRegister.isForbidden, ShiftAmount.isForbidden, amount]
      | register rs reserved =>
          simp [transferOffset, TransferOffset.isForbidden, ShiftAmount.isRegister, amount]

theorem refused_halfwordOffset_iff {offset : HalfwordOffset} :
    Refused (machine.halfwordOffset offset) ↔ offset.isForbidden = true := by
  cases offset <;> simp [halfwordOffset, HalfwordOffset.isForbidden]

/-! ### Single and halfword transfers -/

theorem singleTransfer_refused {fields : SingleTransfer} (forbidden : fields.isForbidden = true) :
    Refused (machine.singleTransfer fields) := by
  rcases Bool.or_eq_true_iff.mp forbidden with offset | mode
  · exact (refused_transferOffset_iff.mpr offset).bind_left
  · exact .bind_right fun amount => (refused_transferAddress_iff.mpr mode).bind_left

theorem singleTransfer_refuses_access {fields : SingleTransfer} (permitted : fields.isForbidden = false) :
    RefusesOnly Refusal.IsAccess (machine.singleTransfer fields) := by
  obtain ⟨offset, mode⟩ := Bool.or_eq_false_iff.mp permitted
  refine .bind (.of_refused_iff refused_transferOffset_iff offset) fun amount => ?_
  refine .bind (.of_refused_iff refused_transferAddress_iff mode) ?_
  rintro ⟨machine, address⟩
  cases fields.transfer <;> cases fields.quantity
  case load.byte => exact .bind (machine.loadByte_refuses_access _) fun value => refusesOnly_pure _
  case load.word => exact .bind (machine.loadWord_refuses_access _) fun value => refusesOnly_pure _
  case store.byte => exact .bind (machine.storeByte_refuses_access _ _) fun after => refusesOnly_pure _
  case store.word => exact .bind (machine.storeWord_refuses_access _ _) fun after => refusesOnly_pure _

theorem singleTransfer_programCounter {fields : SingleTransfer} (base : fields.rn = Reg.pc)
    (offset : fields.offset.isForbidden = false) (updates : fields.mode.updatesBase = true)
    (single : (fields.mode.indexing == .post && fields.mode.writeBack) = false) :
    machine.singleTransfer fields = .error .writeBackToProgramCounter := by
  obtain ⟨amount, offsetRead⟩ : ∃ amount, machine.transferOffset fields.offset = .ok amount :=
    exists_ok_of_not_refused (by simp [refused_transferOffset_iff, offset])
  rw [singleTransfer, offsetRead, base]
  show (machine.transferAddress fields.mode Reg.pc amount >>= _) = _
  rw [transferAddress_programCounter updates single]
  rfl

theorem halfwordTransfer_refused {fields : HalfwordTransfer} (forbidden : fields.isForbidden = true) :
    Refused (machine.halfwordTransfer fields) := by
  simp only [HalfwordTransfer.isForbidden, Bool.or_eq_true, Bool.and_eq_true, beq_iff_eq] at forbidden
  rcases forbidden with ((swap | offset) | mode) | ⟨store, signed⟩
  · rw [halfwordTransfer, require_bind_of_false (by simp [swap])]
    exact refused_error _
  · exact .bind_right fun _ => (refused_halfwordOffset_iff.mpr offset).bind_left
  · exact .bind_right fun _ => .bind_right fun amount => (refused_transferAddress_iff.mpr mode).bind_left
  · refine .bind_right fun _ => .bind_right fun amount => .bind_right ?_
    rintro ⟨machine, address⟩
    cases kind : fields.kind <;> simp [kind, HalfwordKind.isSigned] at signed <;> simp [store]

theorem halfwordTransfer_refuses_access {fields : HalfwordTransfer} (permitted : fields.isForbidden = false) :
    RefusesOnly Refusal.IsAccess (machine.halfwordTransfer fields) := by
  simp only [HalfwordTransfer.isForbidden, Bool.or_eq_false_iff] at permitted
  obtain ⟨⟨⟨swap, offset⟩, mode⟩, signedStore⟩ := permitted
  rw [halfwordTransfer, require_bind_of_true (by simpa using swap)]
  refine .bind (.of_refused_iff refused_halfwordOffset_iff offset) fun amount => ?_
  refine .bind (.of_refused_iff refused_transferAddress_iff mode) ?_
  rintro ⟨machine, address⟩
  cases transfer : fields.transfer <;> cases kind : fields.kind <;>
    simp [transfer, kind, HalfwordKind.isSigned] at swap signedStore
  case load.unsignedHalfword =>
    exact .bind (machine.loadHalfword_refuses_access _) fun value => refusesOnly_pure _
  case load.signedHalfword =>
    exact .bind (machine.loadHalfword_refuses_access _) fun value => refusesOnly_pure _
  case load.signedByte => exact .bind (machine.loadByte_refuses_access _) fun value => refusesOnly_pure _
  case store.unsignedHalfword =>
    exact .bind (machine.storeHalfword_refuses_access _ _) fun after => refusesOnly_pure _

theorem halfwordTransfer_programCounter {fields : HalfwordTransfer} (base : fields.rn = Reg.pc)
    (kind : fields.kind ≠ .swap) (offset : fields.offset.isForbidden = false)
    (updates : fields.mode.updatesBase = true)
    (single : (fields.mode.indexing == .post && fields.mode.writeBack) = false) :
    machine.halfwordTransfer fields = .error .writeBackToProgramCounter := by
  obtain ⟨amount, offsetRead⟩ : ∃ amount, machine.halfwordOffset fields.offset = .ok amount :=
    exists_ok_of_not_refused (by simp [refused_halfwordOffset_iff, offset])
  rw [halfwordTransfer, require_bind_of_true (by simpa using kind), offsetRead, base]
  show (machine.transferAddress fields.mode Reg.pc amount >>= _) = _
  rw [transferAddress_programCounter updates single]
  rfl

/-! ### Block transfers -/

theorem loadBlock_refuses_access {mode : Addressing} {address : Word} {registers : List Reg} :
    RefusesOnly Refusal.IsAccess (machine.loadBlock mode address registers) := by
  induction registers generalizing machine address with
  | nil => exact refusesOnly_ok _
  | cons reg rest ih => exact .bind (machine.loadWord_refuses_access _) fun value => ih

theorem storeBlock_refused {mode : Addressing} {address : Word} {registers : List Reg}
    (listed : Reg.pc ∈ registers) : Refused (machine.storeBlock mode address registers) := by
  induction registers generalizing machine address with
  | nil => simp at listed
  | cons reg rest ih =>
      rcases List.mem_cons.mp listed with first | later
      · rw [storeBlock, require_bind_of_false (by simp [first])]
        exact refused_error _
      · exact .bind_right fun _ => .bind_right fun after => ih later

theorem storeBlock_refuses_access {mode : Addressing} {address : Word} {registers : List Reg}
    (absent : Reg.pc ∉ registers) :
    RefusesOnly Refusal.IsAccess (machine.storeBlock mode address registers) := by
  induction registers generalizing machine address with
  | nil => exact refusesOnly_ok _
  | cons reg rest ih =>
      simp only [List.mem_cons, not_or] at absent
      rw [storeBlock, require_bind_of_true (by simpa using Ne.symm absent.1)]
      exact .bind (machine.storeWord_refuses_access _ _) fun after => ih absent.2

end Machine

namespace BlockTransfer

variable {fields : BlockTransfer} {reg : Reg}

theorem mem_registers : reg ∈ fields.registers ↔ fields.lists reg = true := by
  have numbered : reg ∈ (List.range 16).map (BitVec.ofNat 4) :=
    List.mem_map.mpr ⟨reg.toNat, List.mem_range.mpr reg.isLt, by simp⟩
  simp [registers, numbered]

theorem mem_order : reg ∈ fields.order ↔ fields.lists reg = true := by
  unfold order
  split <;> simp [mem_registers]

end BlockTransfer

namespace Machine

variable {machine : Machine}

theorem blockTransfer_refused {fields : BlockTransfer} (forbidden : fields.isForbidden = true) :
    Refused (machine.blockTransfer fields) := by
  simp only [BlockTransfer.isForbidden, Bool.or_eq_true, Bool.and_eq_true, beq_iff_eq] at forbidden
  rcases forbidden with (privileged | base) | ⟨store, listed⟩
  · rw [blockTransfer, require_bind_of_false (by simp [privileged])]
    exact refused_error _
  · refine .bind_right fun _ => ?_
    rw [require_bind_of_false (by simp [base])]
    exact refused_error _
  · refine .bind_right fun _ => .bind_right fun _ => ?_
    rw [store]
    rcases listed with programCounter | ⟨writeBack, ownBase⟩
    · exact (storeBlock_refused (BlockTransfer.mem_order.mpr programCounter)).bind_left
    · exact .bind_right fun ⟨after, last⟩ => by simp [writeBack, ownBase]

theorem blockTransfer_refuses_access {fields : BlockTransfer} (permitted : fields.isForbidden = false) :
    RefusesOnly Refusal.IsAccess (machine.blockTransfer fields) := by
  simp only [BlockTransfer.isForbidden, Bool.or_eq_false_iff] at permitted
  obtain ⟨⟨privileged, base⟩, stored⟩ := permitted
  rw [blockTransfer, require_bind_of_true (by simpa using privileged),
    require_bind_of_true (by simpa using base)]
  cases transfer : fields.transfer with
  | load => exact .bind loadBlock_refuses_access fun loaded => refusesOnly_pure _
  | store =>
      simp only [transfer, BEq.rfl, Bool.true_and, Bool.or_eq_false_iff] at stored
      have absent : Reg.pc ∉ fields.order := by simp [BlockTransfer.mem_order, stored.1]
      refine .bind (storeBlock_refuses_access absent) ?_
      rintro ⟨after, last⟩
      cases writeBack : fields.mode.writeBack with
      | false => exact refusesOnly_pure _
      | true =>
          have kept : (!fields.lists fields.rn) = true := by simpa [writeBack] using stored.2
          show RefusesOnly _ (require (!fields.lists fields.rn) _ >>= _)
          rw [require_bind_of_true kept]
          exact refusesOnly_pure _

end Machine

end Arm32
