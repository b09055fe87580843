import Arm32.Execution.Transfer
import Arm32.Proofs.Encoding.Core
import Arm32.Proofs.Safety.Execution
import Arm32.Proofs.Safety.Memory

/-! Instructions that move data between registers and memory, with checks. A block transfer walks all sixteen register
numbers and passes over those that are not listed, which comes to the same as walking the list. -/

namespace Arm32

open Bits (checkedSub)

namespace Machine

variable {machine : Machine}

/-! ### Accesses -/

def checkedLoadByte (machine : Machine) (address : Word) : Checked Refusal Byte :=
  (machine.memory.checkedLoadByte address).adapt .access

def checkedLoadHalfword (machine : Machine) (address : Word) : Checked Refusal (BitVec 16) :=
  (machine.memory.checkedLoadHalfword address).adapt .access

def checkedLoadWord (machine : Machine) (address : Word) : Checked Refusal Word :=
  (machine.memory.checkedLoadWord address).adapt .access

def checkedStoreByte (machine : Machine) (address value : Word) : Checked Refusal Machine := do
  let memory ← (machine.memory.checkedStoreByte address value).adapt .access
  return { machine with memory }

def checkedStoreHalfword (machine : Machine) (address value : Word) : Checked Refusal Machine := do
  let memory ← (machine.memory.checkedStoreHalfword address value).adapt .access
  return { machine with memory }

def checkedStoreWord (machine : Machine) (address value : Word) : Checked Refusal Machine := do
  let memory ← (machine.memory.checkedStoreWord address value).adapt .access
  return { machine with memory }

@[simp] theorem checkedLoadByte_eq (address : Word) :
    machine.checkedLoadByte address = .ofExcept (machine.loadByte address) := by
  rw [checkedLoadByte, Memory.Image.checkedLoadByte_eq, Checked.adapt_ofExcept]
  rfl

@[simp] theorem checkedLoadHalfword_eq (address : Word) :
    machine.checkedLoadHalfword address = .ofExcept (machine.loadHalfword address) := by
  rw [checkedLoadHalfword, Memory.Image.checkedLoadHalfword_eq, Checked.adapt_ofExcept]
  rfl

@[simp] theorem checkedLoadWord_eq (address : Word) :
    machine.checkedLoadWord address = .ofExcept (machine.loadWord address) := by
  rw [checkedLoadWord, Memory.Image.checkedLoadWord_eq, Checked.adapt_ofExcept]
  rfl

@[simp] theorem checkedStoreByte_eq (address value : Word) :
    machine.checkedStoreByte address value = .ofExcept (machine.storeByte address (value.setWidth 8)) := by
  rw [checkedStoreByte, Memory.Image.checkedStoreByte_eq, Checked.adapt_ofExcept, storeByte,
    BitVec.setWidth_eq_extractLsb' (by decide)]
  cases machine.memory.storeByte address (value.extractLsb' 0 8) <;> rfl

@[simp] theorem checkedStoreHalfword_eq (address value : Word) :
    machine.checkedStoreHalfword address value = .ofExcept (machine.storeHalfword address (value.setWidth 16)) := by
  rw [checkedStoreHalfword, Memory.Image.checkedStoreHalfword_eq, Checked.adapt_ofExcept, storeHalfword]
  cases machine.memory.storeHalfword address (value.setWidth 16) <;> rfl

@[simp] theorem checkedStoreWord_eq (address value : Word) :
    machine.checkedStoreWord address value = .ofExcept (machine.storeWord address value) := by
  rw [checkedStoreWord, Memory.Image.checkedStoreWord_eq, Checked.adapt_ofExcept, storeWord]
  cases machine.memory.storeWord address value <;> rfl

/-! ### Single transfers -/

def checkedSwap (machine : Machine) (fields : Swap) : Checked Refusal Machine := do
  require ([fields.rn, fields.rd, fields.rm].all (· != Reg.pc)) .swapWithProgramCounter
  let address ← machine.checkedRead fields.rn.toNat
  let source ← machine.checkedRead fields.rm.toNat
  match fields.quantity with
  | .byte =>
    let loaded ← machine.checkedLoadByte address
    let machine ← machine.checkedStoreByte address source
    machine.checkedWrite fields.rd.toNat (loaded.setWidth 32)
  | .word =>
    let loaded ← machine.checkedLoadWord address
    let machine ← machine.checkedStoreWord address source
    machine.checkedWrite fields.rd.toNat loaded

theorem checkedSwap_eq (fields : Swap) : machine.checkedSwap fields = .ofExcept (machine.swap fields) := by
  cases quantity : fields.quantity <;> simp [checkedSwap, swap, quantity]

def checkedTransferAddress (machine : Machine) (mode : Addressing) (rn : Reg) (amount : Word) :
    Checked Refusal (Machine × Word) := do
  let base ← machine.checkedRead rn.toNat
  let updated := mode.direction.apply base amount
  match mode.indexing with
  | .pre =>
    let address := if rn = Reg.pc then updated + prefetch else updated
    if mode.writeBack then
      require (rn != Reg.pc) .writeBackToProgramCounter
      let machine ← machine.checkedWrite rn.toNat updated
      return (machine, address)
    else return (machine, address)
  | .post =>
    require (!mode.writeBack) .writeBackAfterPostIndexing
    require (rn != Reg.pc) .writeBackToProgramCounter
    let machine ← machine.checkedWrite rn.toNat updated
    return (machine, base)

theorem checkedTransferAddress_eq (mode : Addressing) (rn : Reg) (amount : Word) :
    machine.checkedTransferAddress mode rn amount = .ofExcept (machine.transferAddress mode rn amount) := by
  cases indexing : mode.indexing <;> cases writeBack : mode.writeBack <;>
    simp [checkedTransferAddress, transferAddress, indexing, writeBack]

def checkedTransferOffset (machine : Machine) : TransferOffset → Checked Refusal Word
  | .immediate offset => return offset.setWidth 32
  | .register operand => do
    require (!operand.amount.isRegister) .offsetShiftedByRegister
    require (operand.rm != Reg.pc) .offsetInProgramCounter
    let offset ← machine.checkedShifted operand
    return offset.result

theorem checkedTransferOffset_eq (offset : TransferOffset) :
    machine.checkedTransferOffset offset = .ofExcept (machine.transferOffset offset) := by
  cases offset <;> simp [checkedTransferOffset, transferOffset, checkedShifted_eq]

def checkedStoreOperand (machine : Machine) (reg : Reg) : Checked Refusal Word :=
  machine.checkedOperand reg machine.processor.storePrefetch

def checkedSingleTransfer (machine : Machine) (fields : SingleTransfer) : Checked Refusal (Machine × Flow) := do
  let amount ← machine.checkedTransferOffset fields.offset
  let (machine, address) ← machine.checkedTransferAddress fields.mode fields.rn amount
  match fields.transfer, fields.quantity with
  | .load, .byte =>
    let value ← machine.checkedLoadByte address
    machine.checkedWriteResult fields.rd (value.setWidth 32)
  | .load, .word =>
    let value ← machine.checkedLoadWord address
    machine.checkedWriteResult fields.rd value
  | .store, .byte =>
    let value ← machine.checkedStoreOperand fields.rd
    let machine ← machine.checkedStoreByte address value
    return (machine, .next)
  | .store, .word =>
    let value ← machine.checkedStoreOperand fields.rd
    let machine ← machine.checkedStoreWord address value
    return (machine, .next)

theorem checkedSingleTransfer_eq (fields : SingleTransfer) :
    machine.checkedSingleTransfer fields = .ofExcept (machine.singleTransfer fields) := by
  cases transfer : fields.transfer <;> cases quantity : fields.quantity <;>
    simp [checkedSingleTransfer, singleTransfer, transfer, quantity, checkedTransferOffset_eq,
      checkedTransferAddress_eq, checkedStoreOperand, storeOperand]

def checkedHalfwordOffset (machine : Machine) : HalfwordOffset → Checked Refusal Word
  | .immediate offset => return offset.setWidth 32
  | .register rm => do
    require (rm != Reg.pc) .offsetInProgramCounter
    machine.checkedRead rm.toNat

theorem checkedHalfwordOffset_eq (offset : HalfwordOffset) :
    machine.checkedHalfwordOffset offset = .ofExcept (machine.halfwordOffset offset) := by
  cases offset <;> simp [checkedHalfwordOffset, halfwordOffset]

def checkedHalfwordTransfer (machine : Machine) (fields : HalfwordTransfer) : Checked Refusal (Machine × Flow) := do
  require (fields.kind != .swap) .swapAmongHalfwords
  let amount ← machine.checkedHalfwordOffset fields.offset
  let (machine, address) ← machine.checkedTransferAddress fields.mode fields.rn amount
  match fields.transfer, fields.kind with
  | .load, .unsignedHalfword =>
    let value ← machine.checkedLoadHalfword address
    machine.checkedWriteResult fields.rd (value.setWidth 32)
  | .load, .signedHalfword =>
    let value ← machine.checkedLoadHalfword address
    let value ← Bits.signExtended? (value.setWidth 32) 16
    machine.checkedWriteResult fields.rd value
  | .load, .signedByte =>
    let value ← machine.checkedLoadByte address
    let value ← Bits.signExtended? (value.setWidth 32) 8
    machine.checkedWriteResult fields.rd value
  | .store, .unsignedHalfword =>
    let value ← machine.checkedStoreOperand fields.rd
    let machine ← machine.checkedStoreHalfword address value
    return (machine, .next)
  | .store, .signedHalfword => throw .signedHalfwordStore
  | .store, .signedByte => throw .signedByteStore
  | _, .swap => throw .swapAmongHalfwords

theorem signExtended?_eq {count : Nat} (value : BitVec count) (positive : 0 < count) (within : count ≤ 32) :
    Bits.signExtended? (value.setWidth 32) count = some (value.signExtend 32) := by
  rw [Bits.signExtended?, if_pos ⟨positive, within⟩, BitVec.setWidth_setWidth_of_le _ within, BitVec.setWidth_eq]

theorem checkedHalfwordTransfer_eq (fields : HalfwordTransfer) :
    machine.checkedHalfwordTransfer fields = .ofExcept (machine.halfwordTransfer fields) := by
  cases transfer : fields.transfer <;> cases kind : fields.kind <;>
    simp (disch := decide) [checkedHalfwordTransfer, halfwordTransfer, transfer, kind, checkedHalfwordOffset_eq,
      checkedTransferAddress_eq, checkedStoreOperand, storeOperand, signExtended?_eq]

/-! ### Block transfers -/

/-- All register numbers, in the order in which their addresses go. -/
def checkedNumbers (direction : Direction) : Option (List Index) :=
  ((List.range 16).map (BitVec.ofNat 64)).mapM fun step =>
    match direction with
    | .up => some step
    | .down => checkedSub 15 step

def checkedLists (fields : BlockTransfer) (number : Index) : Option Bool :=
  Bits.bit? fields.list (number.setWidth 8).toNat

def checkedLoadBlock (machine : Machine) (fields : BlockTransfer) (address : Word) (flow : Flow) :
    List Index → Checked Refusal (Machine × Word × Flow)
  | [] => return (machine, address, flow)
  | number :: rest => do
    if ← checkedLists fields number then
      let value ← machine.checkedLoadWord (blockStep fields.mode address).1
      let machine ← machine.checkedWrite number.toNat value
      let flow := if number = 15 then .branched else flow
      machine.checkedLoadBlock fields (blockStep fields.mode address).2 flow rest
    else machine.checkedLoadBlock fields address flow rest

def checkedStoreBlock (machine : Machine) (fields : BlockTransfer) (address : Word) :
    List Index → Checked Refusal (Machine × Word)
  | [] => return (machine, address)
  | number :: rest => do
    if ← checkedLists fields number then
      require (number != 15) .blockStoresProgramCounter
      let value ← machine.checkedRead number.toNat
      let machine ← machine.checkedStoreWord (blockStep fields.mode address).1 value
      machine.checkedStoreBlock fields (blockStep fields.mode address).2 rest
    else machine.checkedStoreBlock fields address rest

def checkedBlockTransfer (machine : Machine) (fields : BlockTransfer) : Checked Refusal (Machine × Flow) := do
  require (!fields.privileged) .privilegedBlock
  require (fields.rn != Reg.pc) .blockBaseIsProgramCounter
  let base ← machine.checkedRead fields.rn.toNat
  let numbers ← checkedNumbers fields.mode.direction
  match fields.transfer with
  | .load =>
    let (machine, last, flow) ← machine.checkedLoadBlock fields base .next numbers
    if fields.mode.writeBack then
      if ← checkedLists fields (fields.rn.setWidth 64) then return (machine, flow)
      else
        let machine ← machine.checkedWrite fields.rn.toNat last
        return (machine, flow)
    else return (machine, flow)
  | .store =>
    let (machine, last) ← machine.checkedStoreBlock fields base numbers
    if fields.mode.writeBack then
      let listed ← checkedLists fields (fields.rn.setWidth 64)
      require (!listed) .blockStoresOwnBase
      let machine ← machine.checkedWrite fields.rn.toNat last
      return (machine, .next)
    else return (machine, .next)

/-- The registers from the one at the lowest address to the one at the highest. -/
def inAddressOrder : Direction → List Reg
  | .up => (List.range 16).map (BitVec.ofNat 4)
  | .down => ((List.range 16).map (BitVec.ofNat 4)).reverse

theorem order_eq_filter (fields : BlockTransfer) :
    fields.order = (inAddressOrder fields.mode.direction).filter fields.lists := by
  cases direction : fields.mode.direction with
  | up => simp [BlockTransfer.order, BlockTransfer.registers, inAddressOrder, direction]
  | down => simp [BlockTransfer.order, BlockTransfer.registers, inAddressOrder, direction, List.filter_reverse]

theorem checkedNumbers_eq (direction : Direction) :
    checkedNumbers direction = some ((inAddressOrder direction).map (·.setWidth 64)) := by
  cases direction <;> rfl

theorem checkedLists_eq (fields : BlockTransfer) (reg : Reg) :
    checkedLists fields (reg.setWidth 64) = some (fields.lists reg) := by
  have below : reg.toNat < 16 := reg.isLt
  have number : ((reg.setWidth 64).setWidth 8).toNat = reg.toNat := by
    rw [BitVec.setWidth_setWidth_of_le _ (by decide)]
    exact BitVec.toNat_setWidth_of_le (by decide)
  rw [checkedLists, number]
  exact Bits.bit?_eq below

theorem number_eq_pc_iff (reg : Reg) : reg.setWidth 64 = 15#64 ↔ reg = Reg.pc := by
  revert reg
  decide

theorem toNat_number (reg : Reg) : reg.toNat % 18446744073709551616 = reg.toNat :=
  Nat.mod_eq_of_lt (Nat.lt_trans reg.isLt (by decide))

theorem checkedLoadBlock_eq {fields : BlockTransfer} {address : Word} {flow : Flow} (regs : List Reg) :
    machine.checkedLoadBlock fields address flow (regs.map (·.setWidth 64)) =
      (fun loaded => (loaded.1, loaded.2, if Reg.pc ∈ regs.filter fields.lists then .branched else flow)) <$>
        Checked.ofExcept (machine.loadBlock fields.mode address (regs.filter fields.lists)) := by
  induction regs generalizing machine address flow with
  | nil => simp [checkedLoadBlock, loadBlock]
  | cons reg rest ih =>
      cases listed : fields.lists reg with
      | false => simp [checkedLoadBlock, checkedLists_eq, listed, ih]
      | true =>
          -- Once the program counter is loaded the flow stays that of a branch.
          by_cases written : reg = Reg.pc
          · subst written
            simp [checkedLoadBlock, checkedLists_eq, listed, ih, toNat_number, number_eq_pc_iff, loadBlock]
          · have other : Reg.pc ≠ reg := Ne.symm written
            simp [checkedLoadBlock, checkedLists_eq, listed, ih, toNat_number, number_eq_pc_iff, written, other, loadBlock]

theorem checkedStoreBlock_eq {fields : BlockTransfer} {address : Word} (regs : List Reg) :
    machine.checkedStoreBlock fields address (regs.map (·.setWidth 64)) =
      .ofExcept (machine.storeBlock fields.mode address (regs.filter fields.lists)) := by
  induction regs generalizing machine address with
  | nil => rfl
  | cons reg rest ih =>
      cases listed : fields.lists reg with
      | false => simp [checkedStoreBlock, checkedLists_eq, listed, ih]
      | true =>
          have sameRule : (reg.setWidth 64 != 15#64) = (reg != Reg.pc) := by
            rw [bne, bne, Bool.not_inj_iff, Bool.eq_iff_iff, beq_iff_eq, beq_iff_eq, number_eq_pc_iff]
          simp [checkedStoreBlock, checkedLists_eq, listed, ih, toNat_number, sameRule, storeBlock]

theorem checkedBlockTransfer_eq (fields : BlockTransfer) :
    machine.checkedBlockTransfer fields = .ofExcept (machine.blockTransfer fields) := by
  have listsPc : Reg.pc ∈ (inAddressOrder fields.mode.direction).filter fields.lists ↔ fields.lists Reg.pc = true := by
    rw [← order_eq_filter, BlockTransfer.mem_order]
  cases transfer : fields.transfer <;> cases writeBack : fields.mode.writeBack <;>
    cases listed : fields.lists fields.rn <;>
      simp [checkedBlockTransfer, blockTransfer, transfer, writeBack, listed, checkedNumbers_eq, checkedLists_eq,
        checkedLoadBlock_eq, checkedStoreBlock_eq, order_eq_filter, listsPc]

end Machine

end Arm32
