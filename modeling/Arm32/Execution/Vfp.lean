import Arm32.Machine
import Arm32.Vfp.ShortVector

/-! Floating-point instructions. They never branch. -/

namespace Arm32.Machine

open Vfp (Slot SystemRegister)

/-- Loads words into slots, lowest address first. -/
def loadSlots (machine : Machine) (address : Word) (slot : Nat) : Nat → Except Refusal Machine
  | 0 => .ok machine
  | count + 1 => do
    let value ← machine.loadWord address
    let target ← Slot.number? slot
    { machine with vfp := machine.vfp.write target value }.loadSlots (address + 4) (slot + 1) count

def storeSlots (machine : Machine) (address : Word) (slot : Nat) : Nat → Except Refusal Machine
  | 0 => .ok machine
  | count + 1 => do
    let source ← Slot.number? slot
    let machine ← machine.storeWord address (machine.vfp.read source)
    machine.storeSlots (address + 4) (slot + 1) count

def transferSlots (machine : Machine) (transfer : Transfer) (address : Word) (slot : Slot) (count : Nat) :
    Except Refusal Machine :=
  match transfer with
  | .load => machine.loadSlots address slot.toNat count
  | .store => machine.storeSlots address slot.toNat count

def writeBackBase (machine : Machine) (rn : Reg) (value : Word) : Except Refusal Machine := do
  require (rn != Reg.pc) .writeBackToProgramCounter
  return machine.write rn value

def vfpLoadStore (machine : Machine) (fields : Vfp.LoadStore) : Except Refusal Machine :=
  let base := machine.operand fields.rn prefetch
  let bytes := fields.offset.setWidth 32 * 4
  let slot := fields.fd.aligned fields.precision
  match fields.mode with
  | .unindexed => machine.transferSlots fields.transfer base slot fields.offset.toNat
  | .increment => do
    let machine ← machine.transferSlots fields.transfer base slot fields.offset.toNat
    machine.writeBackBase fields.rn (base + bytes)
  | .decrement => do
    let machine ← machine.transferSlots fields.transfer (base - bytes) slot fields.offset.toNat
    machine.writeBackBase fields.rn (base - bytes)
  | .positiveOffset => machine.transferSlots fields.transfer (base + bytes) slot fields.precision.words
  | .negativeOffset => machine.transferSlots fields.transfer (base - bytes) slot fields.precision.words
  | .undefined mode => .error (.undefinedVfpAddressing mode)

/-- The comparison flags become those of the status register. -/
def moveCompareFlags (machine : Machine) (source : SystemRegister) : Except Refusal Machine := do
  require (source == .fpscr) .flagsFromOtherRegister
  return { machine with status := machine.status.setFlags machine.vfp.compareFlags }

def vfpRegisterTransfer (machine : Machine) (fields : Vfp.RegisterTransfer) : Except Refusal Machine :=
  let system := SystemRegister.ofIndex fields.fn.toNat
  let toSlot (slot : Slot) : Machine := { machine with vfp := machine.vfp.write slot (machine.read fields.rd) }
  let fromSlot (slot : Slot) : Machine := machine.write fields.rd (machine.vfp.read slot)
  if fields.op = .fmrx ∧ fields.rd = Reg.pc then machine.moveCompareFlags system
  else do
    require (fields.rd != Reg.pc) .vfpTransferWithProgramCounter
    match fields.op with
    | .fmsr => return toSlot fields.fn
    | .fmrs => return fromSlot fields.fn
    | .fmxr =>
      let vfp ← machine.vfp.setSystem system (machine.read fields.rd)
      return { machine with vfp }
    | .fmrx =>
      let value ← machine.vfp.system system
      return machine.write fields.rd value
    | .fmdlr => return toSlot fields.fn.lowHalf
    | .fmrdl => return fromSlot fields.fn.lowHalf
    | .fmdhr => return toSlot fields.fn.highHalf
    | .fmrdh => return fromSlot fields.fn.highHalf
    | .undefined opcode => .error (.undefinedVfpTransfer opcode)

def executeVfp (machine : Machine) : Vfp.Instruction → Except Refusal Machine
  | .dataProcessing fields => do
    let vfp ← machine.vfp.process fields
    return { machine with vfp }
  | .loadStore fields => machine.vfpLoadStore fields
  | .registerTransfer fields => machine.vfpRegisterTransfer fields

end Arm32.Machine
