import Arm32.Execution.Vfp
import Arm32.Proofs.Encoding.Forbidden
import Arm32.Proofs.Refusals

/-! Floating-point instructions against their rules. A list of slots that runs past the last one is refused on the
way, by memory if not by the file of slots; a list that does not is refused by memory alone. -/

namespace Arm32

namespace Vfp

theorem refused_process_iff {registers : Registers} {fields : DataProcessing} :
    Refused (registers.process fields) ↔ fields.isForbidden = true := by
  obtain ⟨precision, op, fd, fn, fm⟩ := fields
  cases op with
  | arithmetic op => simp [Registers.process, DataProcessing.isForbidden]
  | extension op => cases op <;> simp [Registers.process, DataProcessing.isForbidden]
  | undefined opcode => simp [Registers.process, DataProcessing.isForbidden]

theorem refused_number?_iff {index : Nat} : Refused (Slot.number? index) ↔ 32 ≤ index := by
  unfold Slot.number?
  split <;> simp <;> omega

theorem lowHalf_le (slot : Slot) : slot.lowHalf.toNat + 2 ≤ 32 := by
  have upper : (slot.extractLsb' 1 4).toNat < 16 := (slot.extractLsb' 1 4).isLt
  simp only [Slot.lowHalf, BitVec.toNat_append, BitVec.toNat_ofNat]
  simp only [Nat.shiftLeft_eq, Nat.zero_mod, Nat.or_zero]
  omega

/-- One register always fits the file. -/
theorem aligned_add_words_le (slot : Slot) (precision : Precision) :
    (slot.aligned precision).toNat + precision.words ≤ 32 := by
  cases precision with
  | single => exact slot.isLt
  | double => exact lowHalf_le slot

def SystemRegister.isKnown : SystemRegister → Bool
  | unknown _ => false
  | _ => true

theorem refused_system_iff {registers : Registers} {register : SystemRegister} :
    Refused (registers.system register) ↔ register.isKnown = false := by
  cases register <;> simp [Registers.system, SystemRegister.isKnown]

theorem refused_setSystem_iff {registers : Registers} {register : SystemRegister} {value : Word} :
    Refused (registers.setSystem register value) ↔ register.isKnown = false := by
  cases register <;> simp [Registers.setSystem, SystemRegister.isKnown]

theorem RegisterTransfer.isUnknownSystem_eq (fields : RegisterTransfer) :
    fields.isUnknownSystem = ((fields.op == .fmxr || fields.op == .fmrx) && !fields.system.isKnown) := by
  unfold isUnknownSystem
  cases fields.op <;> cases fields.system <;> rfl

end Vfp

namespace Machine

open Vfp (Slot)

variable {machine : Machine}

/-! ### Lists of slots -/

theorem loadSlots_refused {address : Word} {slot count : Nat} (bound : slot ≤ 32) (past : 32 < slot + count) :
    Refused (machine.loadSlots address slot count) := by
  induction count generalizing machine address slot with
  | zero => omega
  | succ count ih =>
      refine .bind_right fun value => ?_
      by_cases last : slot = 32
      · exact (Vfp.refused_number?_iff.mpr (by omega)).bind_left
      · exact .bind_right fun target => ih (by omega) (by omega)

theorem loadSlots_refuses_access {address : Word} {slot count : Nat} (inside : slot + count ≤ 32) :
    RefusesOnly Refusal.IsAccess (machine.loadSlots address slot count) := by
  induction count generalizing machine address slot with
  | zero => exact refusesOnly_ok _
  | succ count ih =>
      have exists_target : ¬ Refused (Slot.number? slot) := by
        rw [Vfp.refused_number?_iff]
        omega
      refine .bind (machine.loadWord_refuses_access _) fun value => ?_
      exact .bind (.of_not_refused exists_target) fun target => ih (by omega)

theorem storeSlots_refused {address : Word} {slot count : Nat} (bound : slot ≤ 32) (past : 32 < slot + count) :
    Refused (machine.storeSlots address slot count) := by
  induction count generalizing machine address slot with
  | zero => omega
  | succ count ih =>
      by_cases last : slot = 32
      · exact (Vfp.refused_number?_iff.mpr (by omega)).bind_left
      · exact .bind_right fun source => .bind_right fun after => ih (by omega) (by omega)

theorem storeSlots_refuses_access {address : Word} {slot count : Nat} (inside : slot + count ≤ 32) :
    RefusesOnly Refusal.IsAccess (machine.storeSlots address slot count) := by
  induction count generalizing machine address slot with
  | zero => exact refusesOnly_ok _
  | succ count ih =>
      have exists_source : ¬ Refused (Slot.number? slot) := by
        rw [Vfp.refused_number?_iff]
        omega
      refine .bind (.of_not_refused exists_source) fun source => ?_
      exact .bind (machine.storeWord_refuses_access _ _) fun after => ih (by omega)

theorem transferSlots_refused {transfer : Transfer} {address : Word} {slot : Slot} {count : Nat}
    (past : 32 < slot.toNat + count) : Refused (machine.transferSlots transfer address slot count) := by
  cases transfer with
  | load => exact loadSlots_refused (Nat.le_of_lt slot.isLt) past
  | store => exact storeSlots_refused (Nat.le_of_lt slot.isLt) past

theorem transferSlots_refuses_access {transfer : Transfer} {address : Word} {slot : Slot} {count : Nat}
    (inside : slot.toNat + count ≤ 32) :
    RefusesOnly Refusal.IsAccess (machine.transferSlots transfer address slot count) := by
  cases transfer with
  | load => exact loadSlots_refuses_access inside
  | store => exact storeSlots_refuses_access inside

/-! ### Instructions -/

theorem refused_writeBackBase_iff {rn : Reg} {value : Word} :
    Refused (machine.writeBackBase rn value) ↔ rn = Reg.pc := by
  simp [writeBackBase]

theorem vfpLoadStore_refused {fields : Vfp.LoadStore} (forbidden : fields.isForbidden = true) :
    Refused (machine.vfpLoadStore fields) := by
  unfold vfpLoadStore
  cases mode : fields.mode <;>
    simp [Vfp.LoadStore.isForbidden, mode] at forbidden ⊢
  case unindexed => exact transferSlots_refused forbidden
  all_goals
    rcases forbidden with past | base
    · exact (transferSlots_refused past).bind_left
    · exact .bind_right fun after => refused_writeBackBase_iff.mpr base

theorem vfpLoadStore_refuses_access {fields : Vfp.LoadStore} (permitted : fields.isForbidden = false) :
    RefusesOnly Refusal.IsAccess (machine.vfpLoadStore fields) := by
  unfold vfpLoadStore
  cases mode : fields.mode <;>
    simp [Vfp.LoadStore.isForbidden, mode] at permitted ⊢
  case unindexed => exact transferSlots_refuses_access permitted
  case positiveOffset | negativeOffset =>
    exact transferSlots_refuses_access (Vfp.aligned_add_words_le fields.fd fields.precision)
  all_goals
    refine .bind (transferSlots_refuses_access permitted.1) fun after => .of_not_refused ?_
    rw [refused_writeBackBase_iff]
    exact permitted.2

theorem refused_moveCompareFlags_iff {source : Vfp.SystemRegister} :
    Refused (machine.moveCompareFlags source) ↔ (source != .fpscr) = true := by
  simp [moveCompareFlags]

theorem refused_vfpRegisterTransfer_iff {fields : Vfp.RegisterTransfer} :
    Refused (machine.vfpRegisterTransfer fields) ↔ fields.isForbidden = true := by
  unfold vfpRegisterTransfer Vfp.RegisterTransfer.isForbidden
  by_cases flagMove : fields.op = .fmrx ∧ fields.rd = Reg.pc
  · have isFlagMove : fields.isFlagMove = true := by simp [Vfp.RegisterTransfer.isFlagMove, flagMove]
    simp only [flagMove, isFlagMove, and_self, if_true]
    exact refused_moveCompareFlags_iff
  · have isFlagMove : fields.isFlagMove = false := by
      simpa [Vfp.RegisterTransfer.isFlagMove] using flagMove
    rw [if_neg flagMove, isFlagMove]
    cases op : fields.op <;>
      simp [Vfp.RegisterTransfer.isUnknownSystem_eq, Vfp.RegisterTransfer.system, op,
        Vfp.refused_setSystem_iff, Vfp.refused_system_iff]

theorem executeVfp_refused {instruction : Vfp.Instruction} (forbidden : instruction.isForbidden = true) :
    Refused (machine.executeVfp instruction) := by
  cases instruction with
  | dataProcessing fields => exact (Vfp.refused_process_iff.mpr forbidden).bind_left
  | loadStore fields => exact vfpLoadStore_refused forbidden
  | registerTransfer fields => exact refused_vfpRegisterTransfer_iff.mpr forbidden

theorem executeVfp_refuses_access {instruction : Vfp.Instruction} (permitted : instruction.isForbidden = false) :
    RefusesOnly Refusal.IsAccess (machine.executeVfp instruction) := by
  cases instruction with
  | dataProcessing fields =>
      exact .bind (.of_refused_iff Vfp.refused_process_iff permitted) fun vfp => refusesOnly_pure _
  | loadStore fields => exact vfpLoadStore_refuses_access permitted
  | registerTransfer fields => exact .of_refused_iff refused_vfpRegisterTransfer_iff permitted

end Machine

end Arm32
