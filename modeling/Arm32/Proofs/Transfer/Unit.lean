import Arm32.Proofs.Memory.Views
import Arm32.Proofs.Transfer.Block

/-! Transfers of a byte, a halfword or a word, seen as one kind. The base is moved before the access or after it, and
what is written back can already be seen by a store; a load comes last, and its value wins over the moved base. -/

namespace Arm32

open Memory (AccessSize covers)
open Memory.Image (ChangesOnly)

/-- A transfer of one number between a register and memory, with the offset from the base as the machine has it. -/
structure UnitTransfer where
  mode : Addressing
  transfer : Transfer
  size : AccessSize
  signed : Bool
  rn : Reg
  rd : Reg
  amount : Word
  deriving DecidableEq, Repr

namespace UnitTransfer

variable (moved : UnitTransfer) (before after : Machine)

/-- The base, which reads ahead if it is the program counter. -/
def base : Word := if moved.rn = Reg.pc then before.read Reg.pc + 8 else before.read moved.rn

def movedBase : Word := moved.mode.direction.apply (moved.base before) moved.amount

def address : Word :=
  match moved.mode.indexing with
  | .pre => moved.movedBase before
  | .post => moved.base before

/-- What the base register holds once the address is worked out. -/
def baseAfter : Word := if moved.mode.updatesBase then moved.movedBase before else before.read moved.rn

def writtenBack : Machine := before.write moved.rn (moved.baseAfter before)

/-- The value of a number in memory, in two's complement if it is signed. -/
def value (number : Nat) : Int :=
  if moved.signed = true ∧ moved.size.bound ≤ 2 * number then number - moved.size.bound else number

/-- What a store takes its number from. -/
def source : Word :=
  if moved.rd = Reg.pc then
    match before.processor with
    | .arm7 => before.read Reg.pc + 12
    | .arm8 => before.read Reg.pc + 8
  else if moved.rd = moved.rn then moved.baseAfter before
  else before.read moved.rd

/-- The register has become the value of the number at the address, even if it is the base as well. -/
structure Loaded : Prop where
  value : after.read moved.rd = BitVec.ofInt 32 (moved.value (before.memory.number moved.size (moved.address before)))
  base : moved.rn ≠ moved.rd → after.read moved.rn = moved.baseAfter before
  kept : ∀ reg, reg ≠ moved.rd → reg ≠ moved.rn → after.read reg = before.read reg
  others : after = { before with registers := after.registers }

/-- The number at the address has become the low bits of the register. -/
structure Stored : Prop where
  value : after.memory.number moved.size (moved.address before) = (moved.source before).toNat % moved.size.bound
  base : after.read moved.rn = moved.baseAfter before
  kept : ∀ reg, reg ≠ moved.rn → after.read reg = before.read reg
  memory : ChangesOnly (fun other => covers (moved.address before) moved.size.bytes other = true)
    before.memory after.memory
  others : after = { before with registers := after.registers, memory := after.memory }

def Transferred : Prop :=
  match moved.transfer with
  | .load => moved.Loaded before after
  | .store => moved.Stored before after

/-- All bytes of the number are mapped, and its address is aligned. -/
def IsAccessible : Prop := before.memory.requireAccess moved.size (moved.address before) = .ok ()

end UnitTransfer

/-! ### Instructions as transfers of one number -/

/-- No offset is shifted by a register. -/
def TransferOffset.amount (machine : Machine) : TransferOffset → Word
  | immediate offset => offset.setWidth 32
  | register ⟨rm, kind, .immediate places⟩ =>
    (Shifter.byImmediate kind places (machine.read rm) machine.status.carry).result
  | register ⟨_, _, .register _ _⟩ => 0

def HalfwordOffset.amount (machine : Machine) : HalfwordOffset → Word
  | immediate offset => offset.setWidth 32
  | register rm => machine.read rm

def Quantity.size : Quantity → AccessSize
  | word => .word
  | byte => .byte

def HalfwordKind.size (kind : HalfwordKind) : AccessSize := if kind.isHalfword then .halfword else .byte

def SingleTransfer.unit (fields : SingleTransfer) (machine : Machine) : UnitTransfer :=
  { mode := fields.mode
    transfer := fields.transfer
    size := fields.quantity.size
    signed := false
    rn := fields.rn
    rd := fields.rd
    amount := fields.offset.amount machine }

def HalfwordTransfer.unit (fields : HalfwordTransfer) (machine : Machine) : UnitTransfer :=
  { mode := fields.mode
    transfer := fields.transfer
    size := fields.kind.size
    signed := fields.kind.isSigned
    rn := fields.rn
    rd := fields.rd
    amount := fields.offset.amount machine }

def Instruction.unitTransfer? (machine : Machine) : Instruction → Option UnitTransfer
  | singleTransfer fields => some (fields.unit machine)
  | halfwordTransfer fields => some (fields.unit machine)
  | _ => none

namespace Machine

variable (machine : Machine) (moved : UnitTransfer)

def loadUnit (size : AccessSize) (address : Word) : Except Refusal (BitVec size.bits) :=
  (machine.memory.load size address).mapError .access

def storeUnit (size : AccessSize) (address : Word) (value : BitVec size.bits) : Except Refusal Machine :=
  machine.withMemory (machine.memory.store size address value)

/-- A load or a store at an address. -/
def accessUnit (address : Word) : Except Refusal (Machine × Flow) :=
  match moved.transfer with
  | .load => do
    let value ← machine.loadUnit moved.size address
    return machine.writeResult moved.rd (if moved.signed then value.signExtend 32 else value.setWidth 32)
  | .store => do
    let machine ← machine.storeUnit moved.size address ((machine.storeOperand moved.rd).setWidth moved.size.bits)
    return (machine, .next)

def transferUnit : Except Refusal (Machine × Flow) := do
  let (machine, address) ← machine.transferAddress moved.mode moved.rn moved.amount
  machine.accessUnit moved address

variable {machine}

theorem transferOffset_eq {offset : TransferOffset} (permitted : offset.isForbidden = false) :
    machine.transferOffset offset = .ok (offset.amount machine) := by
  cases offset with
  | immediate offset => rfl
  | register operand =>
      obtain ⟨rm, kind, amount⟩ := operand
      cases amount with
      | immediate places =>
          have apart : rm ≠ Reg.pc := by simpa [TransferOffset.isForbidden, ShiftAmount.isRegister] using permitted
          have offset : machine.operand rm prefetch = machine.read rm := if_neg apart
          refine (require_bind_of_true rfl).trans ((require_bind_of_true (by simpa using apart)).trans ?_)
          rw [shifted, offset]
          rfl
      | register rs reserved => simp [TransferOffset.isForbidden, ShiftAmount.isRegister] at permitted

theorem halfwordOffset_eq {offset : HalfwordOffset} (permitted : offset.isForbidden = false) :
    machine.halfwordOffset offset = .ok (offset.amount machine) := by
  cases offset with
  | immediate offset => rfl
  | register rm => exact require_bind_of_true (by simpa [HalfwordOffset.isForbidden] using permitted)

theorem singleTransfer_eq {fields : SingleTransfer} (permitted : fields.isForbidden = false) :
    machine.singleTransfer fields = machine.transferUnit (fields.unit machine) := by
  obtain ⟨offset, -⟩ := Bool.or_eq_false_iff.mp permitted
  rw [singleTransfer, transferOffset_eq offset]
  obtain ⟨mode, quantity, transfer, rn, rd, offset⟩ := fields
  cases transfer <;> cases quantity <;> rfl

theorem halfwordTransfer_eq {fields : HalfwordTransfer} (permitted : fields.isForbidden = false) :
    machine.halfwordTransfer fields = machine.transferUnit (fields.unit machine) := by
  simp only [HalfwordTransfer.isForbidden, Bool.or_eq_false_iff] at permitted
  obtain ⟨⟨⟨swap, offset⟩, mode⟩, signedStore⟩ := permitted
  rw [halfwordTransfer, require_bind_of_true (by simpa using swap), halfwordOffset_eq offset]
  obtain ⟨mode, transfer, kind, rn, rd, offset⟩ := fields
  cases transfer <;> cases kind <;> first | rfl | simp [HalfwordKind.isSigned] at swap signedStore

variable {moved} {address : Word}

/-! ### The base -/

theorem writtenBack_of_updates (updates : moved.mode.updatesBase = true) :
    moved.writtenBack machine = machine.write moved.rn (moved.movedBase machine) := by
  rw [UnitTransfer.writtenBack, UnitTransfer.baseAfter, if_pos updates]

theorem writtenBack_of_keeps (keeps : moved.mode.updatesBase = false) : moved.writtenBack machine = machine := by
  rw [UnitTransfer.writtenBack, UnitTransfer.baseAfter, keeps, if_neg Bool.false_ne_true, write_read]

theorem keeps_of_pc (permitted : moved.mode.isForbidden moved.rn = false) (base : moved.rn = Reg.pc) :
    moved.mode.updatesBase = false := by
  simp only [Addressing.isForbidden, Bool.or_eq_false_iff] at permitted
  simpa [base] using permitted.2

/-- The address of a permitted transfer, and the machine that its access starts from. -/
theorem transferAddress_eq (permitted : moved.mode.isForbidden moved.rn = false) :
    machine.transferAddress moved.mode moved.rn moved.amount =
      .ok (moved.writtenBack machine, moved.address machine) := by
  by_cases base : moved.rn = Reg.pc
  · have keeps := keeps_of_pc permitted base
    obtain ⟨indexing, writeBack⟩ : moved.mode.indexing = .pre ∧ moved.mode.writeBack = false := by
      cases indexing : moved.mode.indexing <;> simp_all [Addressing.updatesBase]
    have ahead : moved.mode.direction.apply (machine.read Reg.pc) moved.amount + prefetch = moved.movedBase machine := by
      rw [UnitTransfer.movedBase, UnitTransfer.base, if_pos base]
      cases moved.mode.direction <;> simp only [Direction.apply, prefetch] <;> bv_omega
    simp [transferAddress, UnitTransfer.address, writtenBack_of_keeps keeps, indexing, writeBack, base, ahead]
  · have read : moved.base machine = machine.read moved.rn := if_neg base
    have updated : moved.mode.direction.apply (machine.read moved.rn) moved.amount = moved.movedBase machine := by
      rw [UnitTransfer.movedBase, read]
    have counter : (moved.rn != Reg.pc) = true := by simpa using base
    cases indexing : moved.mode.indexing with
    | pre =>
        cases writeBack : moved.mode.writeBack with
        | false =>
            have keeps : moved.mode.updatesBase = false := by simp [Addressing.updatesBase, indexing, writeBack]
            simp [transferAddress, UnitTransfer.address, writtenBack_of_keeps keeps, indexing, writeBack, base, updated]
        | true =>
            have updates : moved.mode.updatesBase = true := by simp [Addressing.updatesBase, writeBack]
            simp only [transferAddress, UnitTransfer.address, writtenBack_of_updates updates, indexing, writeBack, base,
              updated, require_bind_of_true counter, if_true, if_false]
            rfl
    | post =>
        have updates : moved.mode.updatesBase = true := by simp [Addressing.updatesBase, indexing]
        have single : (!moved.mode.writeBack) = true := by
          simp only [Addressing.isForbidden, indexing, Bool.or_eq_false_iff] at permitted
          simpa using permitted.1
        simp only [transferAddress, UnitTransfer.address, writtenBack_of_updates updates, indexing, updated, read,
          require_bind_of_true single, require_bind_of_true counter]
        rfl

theorem read_writtenBack_self : (moved.writtenBack machine).read moved.rn = moved.baseAfter machine := by
  rw [UnitTransfer.writtenBack, read_write, if_pos rfl]

theorem read_writtenBack_of_ne {reg : Reg} (apart : reg ≠ moved.rn) :
    (moved.writtenBack machine).read reg = machine.read reg := by
  rw [UnitTransfer.writtenBack, read_write, if_neg apart]

/-- The program counter is never written back. -/
theorem read_writtenBack_pc (permitted : moved.mode.isForbidden moved.rn = false) :
    (moved.writtenBack machine).read Reg.pc = machine.read Reg.pc := by
  by_cases base : moved.rn = Reg.pc
  · rw [writtenBack_of_keeps (keeps_of_pc permitted base)]
  · exact read_writtenBack_of_ne (Ne.symm base)

theorem storeOperand_writtenBack (permitted : moved.mode.isForbidden moved.rn = false) :
    (moved.writtenBack machine).storeOperand moved.rd = moved.source machine := by
  have processor : (moved.writtenBack machine).processor = machine.processor := rfl
  unfold storeOperand operand UnitTransfer.source
  split
  next counter =>
    rw [counter, read_writtenBack_pc permitted, processor]
    cases machine.processor <;> rfl
  next =>
    split
    next base => rw [base, read_writtenBack_self]
    next apart => exact read_writtenBack_of_ne apart

/-! ### The access -/

theorem loadUnit_eq_ok_iff {size : AccessSize} {address : Word} {value : BitVec size.bits} :
    machine.loadUnit size address = .ok value ↔ machine.memory.load size address = .ok value := by
  rw [loadUnit]
  cases machine.memory.load size address <;> simp [Except.mapError]

theorem storeUnit_eq_ok_iff {size : AccessSize} {address : Word} {value : BitVec size.bits} {after : Machine} :
    machine.storeUnit size address value = .ok after ↔
      ∃ memory, machine.memory.store size address value = .ok memory ∧ after = { machine with memory } := by
  rw [storeUnit]
  cases machine.memory.store size address value <;> simp [withMemory, eq_comm]

theorem exists_accessUnit_iff :
    (∃ done, machine.accessUnit moved address = .ok done) ↔
      machine.memory.requireAccess moved.size address = .ok () := by
  unfold accessUnit
  cases moved.transfer with
  | load =>
      show (∃ done, (machine.loadUnit moved.size address >>= _) = _) ↔ _
      rw [exists_ok_iff, refused_bind_of_answers fun _ => not_refused_pure _, ← exists_ok_iff]
      simp only [loadUnit_eq_ok_iff, Memory.Image.exists_load_iff]
  | store =>
      show (∃ done, (machine.storeUnit moved.size address _ >>= _) = _) ↔ _
      rw [exists_ok_iff, refused_bind_of_answers fun _ => not_refused_pure _, ← exists_ok_iff]
      rw [← Memory.Image.exists_store_iff]
      constructor
      · rintro ⟨after, stored⟩
        obtain ⟨memory, put, -⟩ := storeUnit_eq_ok_iff.mp stored
        exact ⟨memory, put⟩
      · rintro ⟨memory, put⟩
        exact ⟨_, storeUnit_eq_ok_iff.mpr ⟨memory, put, rfl⟩⟩

/-- A loaded number is extended the way its sign asks for. -/
theorem ofInt_value (moved : UnitTransfer) (value : BitVec moved.size.bits) :
    (if moved.signed then value.signExtend 32 else value.setWidth 32) = BitVec.ofInt 32 (moved.value value.toNat) := by
  cases sign : moved.signed with
  | false => simp [UnitTransfer.value, sign, BitVec.ofInt_natCast, BitVec.ofNat_toNat]
  | true =>
      rw [if_pos rfl, BitVec.signExtend, AccessSize.toInt_eq]
      congr 1
      simp only [UnitTransfer.value, sign, true_and]
      split <;> split <;> omega

theorem accessUnit_transferred (permitted : moved.mode.isForbidden moved.rn = false) :
    Ensures (fun done => moved.Transferred machine done.1)
      ((moved.writtenBack machine).accessUnit moved (moved.address machine)) := by
  unfold UnitTransfer.Transferred accessUnit
  cases moved.transfer with
  | load =>
      refine .bind_found ?_
      intro value loaded
      obtain ⟨-, number⟩ := Memory.Image.load_eq_ok_iff.mp (loadUnit_eq_ok_iff.mp loaded)
      have memory : (moved.writtenBack machine).memory = machine.memory := rfl
      refine .pure ⟨?_, ?_, ?_, rfl⟩
      · rw [writeResult, read_write, if_pos rfl, ofInt_value, number, memory]
      · intro apart
        rw [writeResult, read_write, if_neg apart, read_writtenBack_self]
      · intro reg apart other
        rw [writeResult, read_write, if_neg apart, read_writtenBack_of_ne other]
  | store =>
      refine .bind_found ?_
      intro after stored
      obtain ⟨memory, put, rfl⟩ := storeUnit_eq_ok_iff.mp stored
      refine .pure ⟨?_, read_writtenBack_self, fun reg => read_writtenBack_of_ne, ChangesOnly.store put, rfl⟩
      show memory.number moved.size (moved.address machine) = _
      rw [Memory.Image.number_of_store put, AccessSize.toNat_setWidth, storeOperand_writtenBack permitted]

theorem transferUnit_eq (permitted : moved.mode.isForbidden moved.rn = false) :
    machine.transferUnit moved = (moved.writtenBack machine).accessUnit moved (moved.address machine) := by
  rw [transferUnit, transferAddress_eq permitted]
  rfl

theorem exists_transferUnit_iff (permitted : moved.mode.isForbidden moved.rn = false) :
    (∃ done, machine.transferUnit moved = .ok done) ↔ moved.IsAccessible machine := by
  rw [transferUnit_eq permitted]
  exact exists_accessUnit_iff

/-- An instruction that keeps its rules is carried out as a transfer of one number. -/
theorem perform_unitTransfer {instruction : Instruction} {word : Word}
    (unit : instruction.unitTransfer? machine = some moved) (permitted : instruction.isForbidden = false) :
    machine.perform word instruction = machine.transferUnit moved ∧ moved.mode.isForbidden moved.rn = false := by
  cases instruction with
  | singleTransfer fields =>
      cases unit
      exact ⟨singleTransfer_eq permitted, (Bool.or_eq_false_iff.mp permitted).2⟩
  | halfwordTransfer fields =>
      cases unit
      have rules : fields.isForbidden = false := permitted
      simp only [HalfwordTransfer.isForbidden, Bool.or_eq_false_iff] at rules
      exact ⟨halfwordTransfer_eq permitted, rules.1.2⟩
  | _ => cases unit

/-- A single or halfword transfer is carried out exactly if it keeps its rules and its number can be accessed. Then the
number has been moved, and nothing else has changed but for the base. -/
theorem execute_unitTransfer {word : Word}
    (unit : (Instruction.decode word).unitTransfer? machine = some moved)
    (holds : machine.status.holds (Condition.ofWord word) = true) :
    ((∃ done, machine.execute word = .ok done) ↔
        (Instruction.decode word).isForbidden = false ∧ moved.IsAccessible machine) ∧
      ∀ after flow, machine.execute word = .ok (after, flow) → moved.Transferred machine after := by
  rw [execute_of_holds holds]
  cases forbidden : (Instruction.decode word).isForbidden with
  | true =>
      have refused : Refused (machine.perform word (Instruction.decode word)) := perform_refused forbidden
      have unanswered (done : Machine × Flow) : machine.perform word (Instruction.decode word) ≠ .ok done :=
        fun executed => exists_ok_iff.mp ⟨done, executed⟩ refused
      refine ⟨⟨fun ⟨done, executed⟩ => absurd executed (unanswered done), fun both => nomatch both.1⟩, ?_⟩
      intro after flow executed
      exact absurd executed (unanswered _)
  | false =>
      obtain ⟨performed, permitted⟩ := perform_unitTransfer unit forbidden
      rw [performed]
      refine ⟨by simpa using exists_transferUnit_iff permitted, ?_⟩
      intro after flow executed
      rw [transferUnit_eq permitted] at executed
      exact accessUnit_transferred permitted _ executed

/-- Register 1 is half of the addresses away from the words, and so is register 2 rotated right through the carry. -/
def awayFromWords : Machine := { (aboveWords.write 1 0x80000000).write 2 8 with status := ⟨0x20000000⟩ }

/-- The base is moved to the second of the words, and it is the moved base that is stored there. -/
theorem execute_unitTransfer_ownBase :
    ∃ after, awayFromWords.execute 0xe7a11062 = .ok (after, .next) ∧
      ((Instruction.singleTransferOf 0xe7a11062).unit awayFromWords).Transferred awayFromWords after ∧
      after.read 1 = 4 ∧ after.memory.number .word 4 = 4 := by
  have executed : awayFromWords.execute 0xe7a11062 = .ok (_, .next) := rfl
  exact ⟨_, executed, (execute_unitTransfer rfl rfl).2 _ _ executed, by decide, by decide⟩

end Machine

end Arm32
