import Arm32.Execution.Step
import Arm32.Proofs.Encoding.Forbidden
import Arm32.Proofs.Emulation.Steps
import Arm32.Proofs.Memory.Words

/-! What an instruction may change, read off its fields and its operands: the registers, the bytes of memory, the bits of
the status registers, the floating-point slots. A footprint bounds a change of the machine in all of these. -/

namespace Arm32

/-! ### Classes of instructions by what they change -/

namespace AluOp

/-- Works on each bit alone, so that nothing can overflow. -/
def isLogical : AluOp → Bool
  | and | eor | tst | teq | orr | mov | bic | mvn => true
  | _ => false

end AluOp

/-- The sign and the zero flag, which a multiply sets. -/
def Psr.resultMask : Word := 0xc0000000

/-- All flags but the overflow, which a logical operation keeps. -/
def Psr.logicalMask : Word := 0xe0000000

/-- The bits of the status register that the operation sets, when it sets any. -/
def AluOp.flagMask (op : AluOp) : Word := if op.isLogical then Psr.logicalMask else Psr.flagMask

namespace Vfp

/-- Moves a list of slots with the base register moved past it or down to it. -/
def AddressMode.updatesBase : AddressMode → Bool
  | increment | decrement => true
  | _ => false

/-- Puts its answer into a core register. -/
def TransferOp.isToCore : TransferOp → Bool
  | fmrs | fmrx | fmrdl | fmrdh => true
  | _ => false

/-- Puts a core register into a slot. -/
def TransferOp.isToSlot : TransferOp → Bool
  | fmsr | fmdlr | fmdhr => true
  | _ => false

def DataProcessing.isCompare (fields : DataProcessing) : Bool :=
  match fields.op with
  | .extension op => op.isCompare
  | _ => false

namespace LoadStore

/-- The lowest address that is loaded from or stored to. -/
def start (fields : LoadStore) (base : Word) : Word :=
  let bytes := fields.offset.setWidth 32 * 4
  match fields.mode with
  | .positiveOffset => base + bytes
  | .negativeOffset | .decrement => base - bytes
  | _ => base

def wordCount (fields : LoadStore) : Nat :=
  if fields.mode.isMultiple then fields.offset.toNat else fields.precision.words

end LoadStore

end Vfp

def Quantity.bytes : Quantity → Nat
  | word => 4
  | byte => 1

/-- The address of a single or halfword transfer. As its base the program counter reads ahead. -/
def Addressing.address (mode : Addressing) (machine : Machine) (rn : Reg) (amount : Word) : Word :=
  match mode.indexing with
  | .pre => mode.direction.apply (machine.operand rn prefetch) amount
  | .post => machine.read rn

/-- The lowest address of a block, whichever way its addresses go. -/
def BlockTransfer.lowest (fields : BlockTransfer) (base : Word) : Word :=
  let bytes := BitVec.ofNat 32 (4 * fields.registers.length)
  match fields.mode.direction, fields.mode.indexing with
  | .up, .post => base
  | .up, .pre => base + 4
  | .down, .post => base - bytes + 4
  | .down, .pre => base - bytes

/-- Whether an address is among the `size` addresses from `start` up. -/
def Memory.covers (start : Word) (size : Nat) (address : Word) : Bool := (address - start).toNat < size

namespace Instruction

/-- The registers that a result, a loaded value or the target of a branch goes to. -/
def hasDestination (reg : Reg) : Instruction → Bool
  | dataProcessing fields => !fields.op.isTest && fields.rd == reg
  | psrTransfer _ (.read rd) => rd == reg
  | multiply fields => fields.rd == reg
  | multiplyLong fields => fields.rdHigh == reg || fields.rdLow == reg
  | countLeadingZeros rd _ => rd == reg
  | swap fields => fields.rd == reg
  | halfwordTransfer fields => fields.transfer == .load && fields.rd == reg
  | singleTransfer fields => fields.transfer == .load && fields.rd == reg
  | blockTransfer fields => fields.transfer == .load && fields.lists reg
  | branch _ _ => reg == Reg.pc
  | vfp (.registerTransfer fields) => fields.op.isToCore && fields.rd == reg
  | _ => false

/-- The base register, if the address is written back to it. -/
def writesBack (reg : Reg) : Instruction → Bool
  | halfwordTransfer fields => fields.mode.updatesBase && fields.rn == reg
  | singleTransfer fields => fields.mode.updatesBase && fields.rn == reg
  | blockTransfer fields => fields.mode.writeBack && fields.rn == reg
  | vfp (.loadStore fields) => fields.mode.updatesBase && fields.rn == reg
  | _ => false

/-- The link register, if the address of the next instruction is put there. -/
def links (reg : Reg) : Instruction → Bool
  | branch link _ => link && reg == Reg.lr
  | _ => false

/-- Writes the register for one of these reasons. -/
def Changes (instruction : Instruction) (reg : Reg) : Prop :=
  instruction.hasDestination reg = true ∨ instruction.writesBack reg = true ∨ instruction.links reg = true

/-- Where an instruction stores: its lowest address, and how many bytes from there up. -/
def storedRange? (machine : Machine) : Instruction → Option (Word × Nat)
  | swap fields => some (machine.read fields.rn, fields.quantity.bytes)
  | singleTransfer fields =>
    match fields.transfer with
    | .load => none
    | .store =>
      (machine.transferOffset fields.offset).toOption.map fun amount =>
        (fields.mode.address machine fields.rn amount, fields.quantity.bytes)
  | halfwordTransfer fields =>
    match fields.transfer with
    | .load => none
    | .store =>
      (machine.halfwordOffset fields.offset).toOption.map fun amount =>
        (fields.mode.address machine fields.rn amount, 2)
  | blockTransfer fields =>
    match fields.transfer with
    | .load => none
    | .store => some (fields.lowest (machine.read fields.rn), 4 * fields.registers.length)
  | vfp (.loadStore fields) =>
    match fields.transfer with
    | .load => none
    | .store => some (fields.start (machine.operand fields.rn prefetch), 4 * fields.wordCount)
  | _ => none

def StoresTo (machine : Machine) (instruction : Instruction) (address : Word) : Prop :=
  ∃ range ∈ instruction.storedRange? machine, Memory.covers range.1 range.2 address = true

/-- An operation or multiply with its bit for setting the flags, a move to the status register, or a move of the
comparison flags. -/
def setsFlags : Instruction → Bool
  | dataProcessing fields => fields.setFlags
  | multiply fields => fields.setFlags
  | multiplyLong fields => fields.setFlags
  | psrTransfer _ (.write _) | psrTransfer _ (.writeFlags _) => true
  | vfp (.registerTransfer fields) => fields.isFlagMove
  | _ => false

def isLogical : Instruction → Bool
  | dataProcessing fields => fields.op.isLogical
  | _ => false

def multiplies : Instruction → Bool
  | multiply _ | multiplyLong _ => true
  | _ => false

/-- The bits of the status register that an instruction may change. -/
def flagMask (instruction : Instruction) : Word :=
  if !instruction.setsFlags then 0
  else if instruction.multiplies then Psr.resultMask
  else if instruction.isLogical then Psr.logicalMask
  else Psr.flagMask

/-- Floating-point operations, loads and moves to a slot. -/
def writesSlots : Instruction → Bool
  | vfp (.dataProcessing _) => true
  | vfp (.loadStore fields) => fields.transfer == .load
  | vfp (.registerTransfer fields) => fields.op.isToSlot
  | _ => false

def isSystemMove : Instruction → Bool
  | vfp (.registerTransfer fields) => fields.op == .fmxr
  | _ => false

def isCompare : Instruction → Bool
  | vfp (.dataProcessing fields) => fields.isCompare
  | _ => false

/-- The bits of the floating-point status register that an instruction may change. -/
def fpscrMask (instruction : Instruction) : Word :=
  if instruction.isSystemMove then 0xffffffff
  else if instruction.isCompare then Vfp.Registers.flagMask
  else 0

end Instruction

/-! ### Bits under a mask -/

theorem getLsbD_of_and_not {width : Nat} {before after mask : BitVec width} {bit : Nat}
    (kept : after &&& ~~~mask = before &&& ~~~mask) (outside : mask.getLsbD bit = false) :
    after.getLsbD bit = before.getLsbD bit := by
  by_cases within : bit < width
  · have same := congrArg (·.getLsbD bit) kept
    simpa only [BitVec.getLsbD_and, BitVec.getLsbD_not, within, outside, decide_true, Bool.not_false, Bool.and_true]
      using same
  · rw [BitVec.getLsbD_of_ge after bit (by omega), BitVec.getLsbD_of_ge before bit (by omega)]

/-- A wider mask leaves less to be kept. -/
theorem and_not_of_and_not {width : Nat} {before after mask wider : BitVec width}
    (kept : after &&& ~~~mask = before &&& ~~~mask) (covered : mask &&& ~~~wider = 0) :
    after &&& ~~~wider = before &&& ~~~wider := by
  refine BitVec.eq_of_getLsbD_eq ?_
  intro bit within
  have both := congrArg (·.getLsbD bit) covered
  simp only [BitVec.getLsbD_and, BitVec.getLsbD_not, within, decide_true, Bool.true_and, BitVec.ofNat_eq_ofNat,
    BitVec.getLsbD_zero] at both ⊢
  cases inside : wider.getLsbD bit with
  | true => simp
  | false =>
      have outside : mask.getLsbD bit = false := by simpa [inside] using both
      rw [getLsbD_of_and_not kept outside]

/-- Bits that are replaced under a mask are kept outside of it. -/
theorem replaced_and_not (old new mask : Word) : ((old &&& ~~~mask) ||| (new &&& mask)) &&& ~~~mask = old &&& ~~~mask := by
  ext place within
  simp only [BitVec.getElem_and, BitVec.getElem_or, BitVec.getElem_not]
  cases old[place] <;> cases new[place] <;> cases mask[place] <;> rfl

theorem Bits.setBit_and_not {width : Nat} {value mask : BitVec width} {index : Nat} {bit : Bool}
    (inside : mask.getLsbD index = true) : setBit value index bit &&& ~~~mask = value &&& ~~~mask := by
  refine BitVec.eq_of_getLsbD_eq ?_
  intro place within
  by_cases same : place = index
  · subst place
    simp [inside]
  · cases bit <;> simp [setBit, within, same]

/-! ### Ranges of memory -/

namespace Memory

variable {start address : Word} {index count : Nat}

/-- A word among words that lie back to back. -/
theorem covers_of_covers_word (within : index < count) (small : count ≤ 256)
    (covered : covers (Image.wordAddress start index) 4 address = true) :
    covers start (4 * count) address = true := by
  simp only [covers, Image.wordAddress, decide_eq_true_eq, BitVec.toNat_sub, BitVec.toNat_add, BitVec.toNat_ofNat,
    Nat.reducePow] at covered ⊢
  omega

namespace Image

variable {image after : Image} {value : Word}

/-- The image keeps its shape, and a byte with another value lies at an address that is allowed. -/
structure ChangesOnly (bytes : Word → Prop) (before after : Image) : Prop where
  base : after.base = before.base
  size : after.size = before.size
  order : after.order = before.order
  byte : ∀ address, ¬ bytes address → after.byte address = before.byte address

variable {bytes : Word → Prop} {before : Image}

theorem ChangesOnly.refl (bytes : Word → Prop) (image : Image) : ChangesOnly bytes image image :=
  ⟨rfl, rfl, rfl, fun _ _ => rfl⟩

theorem ChangesOnly.byteAt? (changes : ChangesOnly bytes before image) {address : Word} (outside : ¬ bytes address) :
    image.byteAt? address = before.byteAt? address := by
  rw [Image.byteAt?, Image.byteAt?, contains_congr changes.base changes.size, changes.byte address outside]

theorem ChangesOnly.setByte (changes : ChangesOnly bytes before image) {address : Word} (allowed : bytes address)
    (value : Byte) : ChangesOnly bytes before (image.setByte address value) := by
  refine ⟨changes.base, changes.size, changes.order, ?_⟩
  intro other outside
  have apart : other ≠ address := by
    rintro rfl
    exact outside allowed
  rw [byte_setByte, if_neg apart]
  exact changes.byte other outside

theorem ChangesOnly.storeByte (changes : ChangesOnly bytes before image) {value : Byte}
    (allowed : ∀ other, covers address 1 other = true → bytes other)
    (stored : image.storeByte address value = .ok after) : ChangesOnly bytes before after := by
  cases access : image.requireAccess .byte address with
  | error fault => simp [Image.storeByte, access, bind, Except.bind] at stored
  | ok _ =>
      simp only [Image.storeByte, access, bind, Except.bind, pure, Except.pure, Except.ok.injEq] at stored
      subst stored
      exact changes.setByte (allowed address (by simp [covers])) value

theorem ChangesOnly.storeHalfword (changes : ChangesOnly bytes before image) {value : BitVec 16}
    (allowed : ∀ other, covers address 2 other = true → bytes other)
    (stored : image.storeHalfword address value = .ok after) : ChangesOnly bytes before after := by
  have place (shift : Word) (near : shift.toNat < 2) : bytes (address + shift) := by
    refine allowed _ ?_
    simp only [covers, decide_eq_true_eq]
    bv_omega
  cases access : image.requireAccess .halfword address with
  | error fault => simp [Image.storeHalfword, access, bind, Except.bind] at stored
  | ok _ =>
      simp only [Image.storeHalfword, access, bind, Except.bind, pure, Except.pure, Except.ok.injEq] at stored
      subst stored
      exact (changes.setByte (by simpa using place 0 (by decide)) _).setByte (place 1 (by decide)) _

theorem ChangesOnly.storeWord (changes : ChangesOnly bytes before image)
    (allowed : ∀ other, covers address 4 other = true → bytes other)
    (stored : image.storeWord address value = .ok after) : ChangesOnly bytes before after := by
  have place (shift : Word) (near : shift.toNat < 4) : bytes (address + shift) := by
    refine allowed _ ?_
    simp only [covers, decide_eq_true_eq]
    bv_omega
  rw [storeWord_of_access (access_of_storeWord stored)] at stored
  cases stored
  refine ((changes.setByte ?_ _).setByte ?_ _).setByte ?_ _ |>.setByte ?_ _
  · simpa using place 0 (by decide)
  · exact place 1 (by decide)
  · exact place 2 (by decide)
  · exact place 3 (by decide)

end Image

end Memory

/-! ### Footprints -/

structure Footprint where
  registers : Reg → Prop
  bytes : Word → Prop
  /-- The bits of the status register. -/
  flags : Word
  slots : Prop
  /-- The bits of the floating-point status register. -/
  fpscr : Word
  fpexc : Prop

/-- The footprint of an instruction in the state that it starts from. -/
def Instruction.footprint (machine : Machine) (instruction : Instruction) : Footprint :=
  { registers := instruction.Changes
    bytes := instruction.StoresTo machine
    flags := instruction.flagMask
    slots := instruction.writesSlots = true
    fpscr := instruction.fpscrMask
    fpexc := instruction.isSystemMove = true }

namespace Instruction

variable {machine : Machine} {instruction : Instruction} {reg : Reg}

theorem footprint_destination (destination : instruction.hasDestination reg = true) :
    (instruction.footprint machine).registers reg := .inl destination

theorem footprint_base (base : instruction.writesBack reg = true) : (instruction.footprint machine).registers reg :=
  .inr (.inl base)

theorem footprint_bytes {start address : Word} {size : Nat} (stores : instruction.storedRange? machine = some (start, size))
    (covered : Memory.covers start size address = true) : (instruction.footprint machine).bytes address :=
  ⟨(start, size), stores, covered⟩

end Instruction

/-- What differs lies in the footprint. Nothing may write the identification register. -/
structure Vfp.Registers.Within (allowed : Footprint) (before after : Vfp.Registers) : Prop where
  slots : ¬ allowed.slots → after.slots = before.slots
  fpscr : after.fpscr &&& ~~~allowed.fpscr = before.fpscr &&& ~~~allowed.fpscr
  fpsid : after.fpsid = before.fpsid
  fpexc : ¬ allowed.fpexc → after.fpexc = before.fpexc

theorem Vfp.Registers.Within.refl (allowed : Footprint) (registers : Vfp.Registers) :
    Within allowed registers registers :=
  ⟨fun _ => rfl, rfl, rfl, fun _ => rfl⟩

namespace Machine

structure Within (allowed : Footprint) (before after : Machine) : Prop where
  registers : ∀ reg, ¬ allowed.registers reg → after.read reg = before.read reg
  status : after.status.bits &&& ~~~allowed.flags = before.status.bits &&& ~~~allowed.flags
  memory : Memory.Image.ChangesOnly allowed.bytes before.memory after.memory
  vfp : Vfp.Registers.Within allowed before.vfp after.vfp
  processor : after.processor = before.processor

namespace Within

variable {allowed : Footprint} {before machine : Machine}

theorem refl (allowed : Footprint) (machine : Machine) : Within allowed machine machine :=
  ⟨fun _ _ => rfl, rfl, .refl _ _, .refl _ _, rfl⟩

theorem write (within : Within allowed before machine) {reg : Reg} (destination : allowed.registers reg) (value : Word) :
    Within allowed before (machine.write reg value) := by
  refine { within with registers := ?_ }
  intro other outside
  have apart : other ≠ reg := by
    rintro rfl
    exact outside destination
  calc (machine.write reg value).read other
    _ = machine.read other := (Registers.read_write machine.registers reg other value).trans (if_neg apart)
    _ = before.read other := within.registers other outside

theorem withStatus (within : Within allowed before machine) {status : Psr}
    (kept : status.bits &&& ~~~allowed.flags = machine.status.bits &&& ~~~allowed.flags) :
    Within allowed before { machine with status } :=
  { within with status := kept.trans within.status }

theorem withVfp (within : Within allowed before machine) {vfp : Vfp.Registers}
    (changed : Vfp.Registers.Within allowed before.vfp vfp) : Within allowed before { machine with vfp } :=
  { within with vfp := changed }

theorem withMemory (within : Within allowed before machine) {memory : Memory.Image}
    (changed : Memory.Image.ChangesOnly allowed.bytes before.memory memory) :
    Within allowed before { machine with memory } :=
  { within with memory := changed }

end Within

end Machine

end Arm32
