import Arm32.Execution.Operand

/-! Instructions that move data between registers and memory. Whatever else goes wrong is found out
before the access, except where a list of registers is moved. -/

namespace Arm32.Machine

def swap (machine : Machine) (fields : Swap) : Except Refusal Machine := do
  require ([fields.rn, fields.rd, fields.rm].all (· != Reg.pc)) .swapWithProgramCounter
  let address := machine.read fields.rn
  let source := machine.read fields.rm
  match fields.quantity with
  | .byte =>
    let loaded ← machine.loadByte address
    let machine ← machine.storeByte address (source.setWidth 8)
    return machine.write fields.rd (loaded.setWidth 32)
  | .word =>
    let loaded ← machine.loadWord address
    let machine ← machine.storeWord address source
    return machine.write fields.rd loaded

/-- The address of a single or halfword transfer. The base is written back here, before the access. -/
def transferAddress (machine : Machine) (mode : Addressing) (rn : Reg) (amount : Word) :
    Except Refusal (Machine × Word) :=
  let base := machine.read rn
  let updated := mode.direction.apply base amount
  match mode.indexing with
  | .pre =>
    let address := if rn = Reg.pc then updated + prefetch else updated
    if mode.writeBack then do
      require (rn != Reg.pc) .writeBackToProgramCounter
      return (machine.write rn updated, address)
    else .ok (machine, address)
  | .post => do
    require (!mode.writeBack) .writeBackAfterPostIndexing
    require (rn != Reg.pc) .writeBackToProgramCounter
    return (machine.write rn updated, base)

def transferOffset (machine : Machine) : TransferOffset → Except Refusal Word
  | .immediate offset => .ok (offset.setWidth 32)
  | .register operand => do
    require (!operand.amount.isRegister) .offsetShiftedByRegister
    require (operand.rm != Reg.pc) .offsetInProgramCounter
    let offset ← machine.shifted operand
    return offset.result

def singleTransfer (machine : Machine) (fields : SingleTransfer) : Except Refusal (Machine × Flow) := do
  let amount ← machine.transferOffset fields.offset
  let (machine, address) ← machine.transferAddress fields.mode fields.rn amount
  match fields.transfer, fields.quantity with
  | .load, .byte =>
    let value ← machine.loadByte address
    return machine.writeResult fields.rd (value.setWidth 32)
  | .load, .word =>
    let value ← machine.loadWord address
    return machine.writeResult fields.rd value
  | .store, .byte =>
    let machine ← machine.storeByte address ((machine.storeOperand fields.rd).setWidth 8)
    return (machine, .next)
  | .store, .word =>
    let machine ← machine.storeWord address (machine.storeOperand fields.rd)
    return (machine, .next)

def halfwordOffset (machine : Machine) : HalfwordOffset → Except Refusal Word
  | .immediate offset => .ok (offset.setWidth 32)
  | .register rm => do
    require (rm != Reg.pc) .offsetInProgramCounter
    return machine.read rm

def halfwordTransfer (machine : Machine) (fields : HalfwordTransfer) : Except Refusal (Machine × Flow) := do
  require (fields.kind != .swap) .swapAmongHalfwords
  let amount ← machine.halfwordOffset fields.offset
  let (machine, address) ← machine.transferAddress fields.mode fields.rn amount
  match fields.transfer, fields.kind with
  | .load, .unsignedHalfword =>
    let value ← machine.loadHalfword address
    return machine.writeResult fields.rd (value.setWidth 32)
  | .load, .signedHalfword =>
    let value ← machine.loadHalfword address
    return machine.writeResult fields.rd (value.signExtend 32)
  | .load, .signedByte =>
    let value ← machine.loadByte address
    return machine.writeResult fields.rd (value.signExtend 32)
  | .store, .unsignedHalfword =>
    let machine ← machine.storeHalfword address ((machine.storeOperand fields.rd).setWidth 16)
    return (machine, .next)
  | .store, .signedHalfword => .error .signedHalfwordStore
  | .store, .signedByte => .error .signedByteStore
  | _, .swap => .error .swapAmongHalfwords

/-- Where one register of a block goes, and the address that the next one starts from. -/
def blockStep (mode : Addressing) (address : Word) : Word × Word :=
  let moved := mode.direction.apply address 4
  match mode.indexing with
  | .pre => (moved, moved)
  | .post => (address, moved)

/-- Loads registers one after the other; the last address comes back with the machine. -/
def loadBlock (machine : Machine) (mode : Addressing) (address : Word) : List Reg → Except Refusal (Machine × Word)
  | [] => .ok (machine, address)
  | reg :: rest => do
    let value ← machine.loadWord (blockStep mode address).1
    (machine.write reg value).loadBlock mode (blockStep mode address).2 rest

def storeBlock (machine : Machine) (mode : Addressing) (address : Word) : List Reg → Except Refusal (Machine × Word)
  | [] => .ok (machine, address)
  | reg :: rest => do
    require (reg != Reg.pc) .blockStoresProgramCounter
    let machine ← machine.storeWord (blockStep mode address).1 (machine.read reg)
    machine.storeBlock mode (blockStep mode address).2 rest

def blockTransfer (machine : Machine) (fields : BlockTransfer) : Except Refusal (Machine × Flow) := do
  require (!fields.privileged) .privilegedBlock
  require (fields.rn != Reg.pc) .blockBaseIsProgramCounter
  let base := machine.read fields.rn
  match fields.transfer with
  | .load =>
    let (machine, last) ← machine.loadBlock fields.mode base fields.order
    /- A loaded base wins over the one to be written back. -/
    let machine :=
      if fields.mode.writeBack && !fields.lists fields.rn then machine.write fields.rn last else machine
    return (machine, if fields.lists Reg.pc then .branched else .next)
  | .store =>
    let (machine, last) ← machine.storeBlock fields.mode base fields.order
    if fields.mode.writeBack then
      require (!fields.lists fields.rn) .blockStoresOwnBase
      return (machine.write fields.rn last, .next)
    else return (machine, .next)

end Arm32.Machine
