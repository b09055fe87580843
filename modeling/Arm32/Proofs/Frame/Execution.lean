import Arm32.Proofs.Frame.Footprint
import Arm32.Proofs.Refusals

/-! Every instruction stays within its footprint. The parts of an instruction are bounded by any footprint that allows
what they change, so that a sequence of parts is bounded by the one footprint of the whole. -/

namespace Arm32

/-! ### Flags -/

namespace Psr

variable {psr : Psr} {value : Word} {sum : Sum} {negative zero carry : Bool}

theorem setResult_and_not :
    (psr.setResult negative zero).bits &&& ~~~resultMask = psr.bits &&& ~~~resultMask := by
  rw [setResult, setZero, Bits.setBit_and_not (by decide), setNegative, Bits.setBit_and_not (by decide)]

theorem setLogical_and_not :
    (psr.setLogical value carry).bits &&& ~~~logicalMask = psr.bits &&& ~~~logicalMask := by
  rw [setLogical, setCarry, Bits.setBit_and_not (by decide)]
  exact and_not_of_and_not setResult_and_not (by decide)

theorem setArithmetic_and_not : (psr.setArithmetic sum).bits &&& ~~~flagMask = psr.bits &&& ~~~flagMask := by
  rw [setArithmetic, setOverflow, Bits.setBit_and_not (by decide), setCarry, Bits.setBit_and_not (by decide)]
  exact and_not_of_and_not setResult_and_not (by decide)

theorem setFlags_and_not : (psr.setFlags value).bits &&& ~~~flagMask = psr.bits &&& ~~~flagMask :=
  replaced_and_not psr.bits value flagMask

end Psr

theorem AluOp.compute_setFlags_and_not (op : AluOp) (first second : Word) (carryIn carryOut : Bool) (psr : Psr) :
    ((op.compute first second carryIn).setFlags psr carryOut).bits &&& ~~~op.flagMask = psr.bits &&& ~~~op.flagMask := by
  cases op with
  | and | eor | tst | teq | orr | mov | bic | mvn => exact Psr.setLogical_and_not
  | sub | rsb | add | adc | sbc | rsc | cmp | cmn => exact Psr.setArithmetic_and_not

/-! ### Addresses of a block -/

open Memory (covers covers_of_covers_word)
open Memory.Image (wordAddress)

namespace Machine

/-- Where the register with an index in the order of a block goes. -/
def blockAddress (mode : Addressing) (address : Word) (index : Nat) : Word :=
  (blockStep mode (mode.direction.apply address (BitVec.ofNat 32 (4 * index)))).1

theorem blockAddress_zero (mode : Addressing) (address : Word) :
    blockAddress mode address 0 = (blockStep mode address).1 := by
  cases direction : mode.direction <;> simp [blockAddress, direction, Direction.apply]

theorem blockAddress_succ (mode : Addressing) (address : Word) (index : Nat) :
    blockAddress mode address (index + 1) = blockAddress mode (blockStep mode address).2 index := by
  have moved : mode.direction.apply address (BitVec.ofNat 32 (4 * (index + 1))) =
      mode.direction.apply (mode.direction.apply address 4) (BitVec.ofNat 32 (4 * index)) := by
    cases mode.direction <;> simp only [Direction.apply] <;> bv_omega
  have next : (blockStep mode address).2 = mode.direction.apply address 4 := by
    cases indexing : mode.indexing <;> simp [blockStep, indexing]
  rw [blockAddress, blockAddress, moved, next]

end Machine

theorem BlockTransfer.length_order (fields : BlockTransfer) : fields.order.length = fields.registers.length := by
  cases direction : fields.mode.direction <;> simp [order, direction]

theorem BlockTransfer.length_registers_le (fields : BlockTransfer) : fields.registers.length ≤ 16 := by
  calc fields.registers.length
    _ ≤ ((List.range 16).map (BitVec.ofNat 4)).length := List.length_filter_le _ _
    _ = 16 := by simp

/-- The place among the words of a block, from the lowest up, of the register with an index in its order. Going down,
the order starts with the highest word. -/
def BlockTransfer.place (fields : BlockTransfer) (index : Nat) : Nat :=
  match fields.mode.direction with
  | .up => index
  | .down => fields.registers.length - 1 - index

/-- The registers of a block go to words that lie back to back, from the lowest up or from the highest down. -/
theorem BlockTransfer.blockAddress_eq_wordAddress (fields : BlockTransfer) (base : Word) {index : Nat}
    (within : index < fields.registers.length) :
    Machine.blockAddress fields.mode base index = wordAddress (fields.lowest base) (fields.place index) := by
  have few := fields.length_registers_le
  cases direction : fields.mode.direction <;> cases indexing : fields.mode.indexing
  case up.post =>
    simp only [Machine.blockAddress, Machine.blockStep, lowest, place, wordAddress, direction, indexing, Direction.apply]
  all_goals
    simp only [Machine.blockAddress, Machine.blockStep, lowest, place, wordAddress, direction, indexing, Direction.apply]
    bv_omega

theorem BlockTransfer.place_lt (fields : BlockTransfer) {index : Nat} (within : index < fields.registers.length) :
    fields.place index < fields.registers.length := by
  unfold place
  split <;> omega

theorem BlockTransfer.covers_of_blockAddress (fields : BlockTransfer) {base address : Word} {index : Nat}
    (within : index < fields.registers.length)
    (covered : covers (Machine.blockAddress fields.mode base index) 4 address = true) :
    covers (fields.lowest base) (4 * fields.registers.length) address = true := by
  have few := fields.length_registers_le
  rw [fields.blockAddress_eq_wordAddress base within] at covered
  exact covers_of_covers_word (fields.place_lt within) (by omega) covered

namespace Machine

variable {allowed : Footprint} {before machine : Machine}

/-! ### Instructions that compute in registers -/

theorem dataProcessing_within (machine : Machine) (fields : DataProcessing) :
    Ensures (fun done => Within ((Instruction.dataProcessing fields).footprint machine) machine done.1)
      (machine.dataProcessing fields) := by
  refine .bind_any fun _ => .bind_any ?_
  intro shifted
  generalize computed : fields.op.compute _ _ _ = result
  have flagged : Within ((Instruction.dataProcessing fields).footprint machine) machine
      (if fields.setFlags then { machine with status := result.setFlags machine.status shifted.carry }
        else machine) := by
    cases sets : fields.setFlags with
    | false => exact .refl _ machine
    | true =>
        refine (Within.refl _ machine).withStatus ?_
        have mask : (Instruction.dataProcessing fields).flagMask = fields.op.flagMask := by
          simp only [Instruction.flagMask, Instruction.setsFlags, sets]
          rfl
        have kept := fields.op.compute_setFlags_and_not (machine.operand fields.rn (firstAhead fields.operand))
          shifted.result machine.status.carry shifted.carry machine.status
        rwa [computed, ← mask] at kept
  cases test : fields.op.isTest with
  | false =>
      have destination : ((Instruction.dataProcessing fields).footprint machine).registers fields.rd :=
        Instruction.footprint_destination (by simp [Instruction.hasDestination, test])
      exact .pure (flagged.write destination result.word)
  | true => exact .pure flagged

theorem psrTransfer_within (machine : Machine) (saved : Bool) (op : PsrOp) :
    Ensures (Within ((Instruction.psrTransfer saved op).footprint machine) machine) (machine.psrTransfer op) := by
  cases op with
  | read rd =>
      refine .bind_any fun _ => .pure ?_
      exact (Within.refl _ machine).write (Instruction.footprint_destination (by simp [Instruction.hasDestination])) _
  | write rm =>
      refine .bind_any fun value => .pure ?_
      exact (Within.refl _ machine).withStatus Psr.setFlags_and_not
  | writeFlags source =>
      cases source with
      | immediate field => exact .answer ((Within.refl _ machine).withStatus Psr.setFlags_and_not)
      | register rm =>
          refine .bind_any fun value => .pure ?_
          exact (Within.refl _ machine).withStatus Psr.setFlags_and_not
  | undefined => exact .error _

/-- The flags of a multiply are set with its bit for that, and kept without. -/
theorem resultFlags_and_not {instruction : Instruction} (product : instruction.multiplies = true) (status : Psr)
    (negative zero : Bool) :
    (if instruction.setsFlags then status.setResult negative zero else status).bits &&& ~~~instruction.flagMask =
      status.bits &&& ~~~instruction.flagMask := by
  cases sets : instruction.setsFlags with
  | false => rfl
  | true =>
      have mask : instruction.flagMask = Psr.resultMask := by simp [Instruction.flagMask, sets, product]
      rw [mask]
      exact Psr.setResult_and_not

theorem multiply_within (machine : Machine) (fields : Multiply) :
    Ensures (Within ((Instruction.multiply fields).footprint machine) machine) (machine.multiply fields) := by
  have destination : ((Instruction.multiply fields).footprint machine).registers fields.rd :=
    Instruction.footprint_destination (by simp [Instruction.hasDestination])
  have product : (Instruction.multiply fields).multiplies = true := rfl
  refine .bind_any fun _ => .bind_any fun _ => .bind_any fun _ => .pure ?_
  exact ((Within.refl _ machine).write destination _).withStatus (resultFlags_and_not product machine.status _ _)

theorem multiplyLong_within (machine : Machine) (fields : MultiplyLong) :
    Ensures (Within ((Instruction.multiplyLong fields).footprint machine) machine) (machine.multiplyLong fields) := by
  have high : ((Instruction.multiplyLong fields).footprint machine).registers fields.rdHigh :=
    Instruction.footprint_destination (by simp [Instruction.hasDestination])
  have low : ((Instruction.multiplyLong fields).footprint machine).registers fields.rdLow :=
    Instruction.footprint_destination (by simp [Instruction.hasDestination])
  have product : (Instruction.multiplyLong fields).multiplies = true := rfl
  refine .bind_any fun _ => .bind_any fun _ => .bind_any fun _ => .pure ?_
  refine Within.withStatus ?_ (resultFlags_and_not product machine.status _ _)
  exact ((Within.refl _ machine).write high _).write low _

theorem countLeadingZeros_within (machine : Machine) (rd rm : Reg) :
    Ensures (Within ((Instruction.countLeadingZeros rd rm).footprint machine) machine)
      (machine.countLeadingZeros rd rm) := by
  refine .bind_any fun _ => .pure ?_
  exact (Within.refl _ machine).write (Instruction.footprint_destination (by simp [Instruction.hasDestination])) _

theorem branch_within (machine : Machine) (link : Bool) (offset : Word) :
    Ensures (fun done => Within ((Instruction.branch link offset).footprint machine) machine done.1)
      (machine.branch link offset) := by
  have counter : ((Instruction.branch link offset).footprint machine).registers Reg.pc := Or.inl rfl
  refine .bind_any fun _ => .pure ?_
  cases link with
  | false => exact (Within.refl _ machine).write counter _
  | true => exact ((Within.refl _ machine).write (Or.inr (Or.inr rfl)) _).write counter _

/-! ### Instructions that move data between registers and memory -/

theorem storeByte_within (within : Within allowed before machine) {address : Word}
    (covered : ∀ other, covers address 1 other = true → allowed.bytes other) (value : Byte) :
    Ensures (Within allowed before) (machine.storeByte address value) := by
  unfold storeByte
  cases stored : machine.memory.storeByte address value with
  | error fault => exact .error _
  | ok memory => exact .answer (within.withMemory (within.memory.storeByte covered stored))

theorem storeHalfword_within (within : Within allowed before machine) {address : Word}
    (covered : ∀ other, covers address 2 other = true → allowed.bytes other) (value : BitVec 16) :
    Ensures (Within allowed before) (machine.storeHalfword address value) := by
  unfold storeHalfword
  cases stored : machine.memory.storeHalfword address value with
  | error fault => exact .error _
  | ok memory => exact .answer (within.withMemory (within.memory.storeHalfword covered stored))

theorem storeWord_within (within : Within allowed before machine) {address : Word}
    (covered : ∀ other, covers address 4 other = true → allowed.bytes other) (value : Word) :
    Ensures (Within allowed before) (machine.storeWord address value) := by
  unfold storeWord
  cases stored : machine.memory.storeWord address value with
  | error fault => exact .error _
  | ok memory => exact .answer (within.withMemory (within.memory.storeWord covered stored))

theorem swap_within (machine : Machine) (fields : Swap) :
    Ensures (Within ((Instruction.swap fields).footprint machine) machine) (machine.swap fields) := by
  have destination : ((Instruction.swap fields).footprint machine).registers fields.rd :=
    Instruction.footprint_destination (by simp [Instruction.hasDestination])
  have stores : (Instruction.swap fields).storedRange? machine = some (machine.read fields.rn, fields.quantity.bytes) := rfl
  refine .bind_any fun _ => ?_
  cases quantity : fields.quantity with
  | byte =>
      rw [quantity] at stores
      refine .bind_any fun loaded => ?_
      refine (storeByte_within (.refl _ machine) (fun _ => Instruction.footprint_bytes stores) _).bind ?_
      intro after stored
      exact .pure (stored.write destination _)
  | word =>
      rw [quantity] at stores
      refine .bind_any fun loaded => ?_
      refine (storeWord_within (.refl _ machine) (fun _ => Instruction.footprint_bytes stores) _).bind ?_
      intro after stored
      exact .pure (stored.write destination _)

theorem transferAddress_within (machine : Machine) (mode : Addressing) (rn : Reg) (amount : Word)
    (updated : mode.updatesBase = true → allowed.registers rn) :
    Ensures (fun done => Within allowed machine done.1 ∧ done.2 = mode.address machine rn amount)
      (machine.transferAddress mode rn amount) := by
  unfold transferAddress Addressing.address
  cases indexing : mode.indexing with
  | pre =>
      have address : (if rn = Reg.pc then mode.direction.apply (machine.read rn) amount + prefetch
            else mode.direction.apply (machine.read rn) amount) =
          mode.direction.apply (machine.operand rn prefetch) amount := by
        unfold operand
        split
        · cases mode.direction <;> simp only [Direction.apply] <;> bv_omega
        · rfl
      cases back : mode.writeBack with
      | false => exact .answer ⟨.refl _ machine, address⟩
      | true =>
          have base := updated (by simp [Addressing.updatesBase, back])
          exact .bind_any fun _ => .pure ⟨(Within.refl _ machine).write base _, address⟩
  | post =>
      have base := updated (by simp [Addressing.updatesBase, indexing])
      refine .bind_any fun _ => .bind_any fun _ => .pure ?_
      exact ⟨(Within.refl _ machine).write base _, rfl⟩

theorem singleTransfer_within (machine : Machine) (fields : SingleTransfer) :
    Ensures (fun done => Within ((Instruction.singleTransfer fields).footprint machine) machine done.1)
      (machine.singleTransfer fields) := by
  have updated : fields.mode.updatesBase = true →
      ((Instruction.singleTransfer fields).footprint machine).registers fields.rn :=
    fun updates => Instruction.footprint_base (by simp [Instruction.writesBack, updates])
  refine .bind_found ?_
  intro amount offset
  refine (transferAddress_within machine fields.mode fields.rn amount updated).bind ?_
  rintro ⟨after, address⟩ ⟨within, rfl⟩
  cases transfer : fields.transfer with
  | load =>
      have destination : ((Instruction.singleTransfer fields).footprint machine).registers fields.rd :=
        Instruction.footprint_destination (by simp [Instruction.hasDestination, transfer])
      cases fields.quantity with
      | byte => exact .bind_any fun value => .pure (within.write destination _)
      | word => exact .bind_any fun value => .pure (within.write destination _)
  | store =>
      -- The range is read off the state before the base was written back.
      have stores : (Instruction.singleTransfer fields).storedRange? machine =
          some (fields.mode.address machine fields.rn amount, fields.quantity.bytes) := by
        simp [Instruction.storedRange?, transfer, offset, Except.toOption]
      cases quantity : fields.quantity with
      | byte =>
          rw [quantity] at stores
          have done := storeByte_within within (fun _ => Instruction.footprint_bytes stores)
          exact (done _).bind fun last stored => .pure stored
      | word =>
          rw [quantity] at stores
          have done := storeWord_within within (fun _ => Instruction.footprint_bytes stores)
          exact (done _).bind fun last stored => .pure stored

theorem halfwordTransfer_within (machine : Machine) (fields : HalfwordTransfer) :
    Ensures (fun done => Within ((Instruction.halfwordTransfer fields).footprint machine) machine done.1)
      (machine.halfwordTransfer fields) := by
  have updated : fields.mode.updatesBase = true →
      ((Instruction.halfwordTransfer fields).footprint machine).registers fields.rn :=
    fun updates => Instruction.footprint_base (by simp [Instruction.writesBack, updates])
  refine .bind_any fun _ => .bind_found ?_
  intro amount offset
  refine (transferAddress_within machine fields.mode fields.rn amount updated).bind ?_
  rintro ⟨after, address⟩ ⟨within, rfl⟩
  cases transfer : fields.transfer with
  | load =>
      have destination : ((Instruction.halfwordTransfer fields).footprint machine).registers fields.rd :=
        Instruction.footprint_destination (by simp [Instruction.hasDestination, transfer])
      cases fields.kind with
      | unsignedHalfword => exact .bind_any fun value => .pure (within.write destination _)
      | signedHalfword => exact .bind_any fun value => .pure (within.write destination _)
      | signedByte => exact .bind_any fun value => .pure (within.write destination _)
      | swap => exact .error _
  | store =>
      have stores : (Instruction.halfwordTransfer fields).storedRange? machine =
          some (fields.mode.address machine fields.rn amount, 2) := by
        simp [Instruction.storedRange?, transfer, offset, Except.toOption]
      cases fields.kind with
      | unsignedHalfword =>
          exact (storeHalfword_within within (fun _ => Instruction.footprint_bytes stores) _).bind fun last stored =>
            .pure stored
      | signedHalfword => exact .error _
      | signedByte => exact .error _
      | swap => exact .error _

theorem loadBlock_within (within : Within allowed before machine) (mode : Addressing) (address : Word) {regs : List Reg}
    (destinations : ∀ reg ∈ regs, allowed.registers reg) :
    Ensures (fun done => Within allowed before done.1) (machine.loadBlock mode address regs) := by
  induction regs generalizing machine address with
  | nil => exact .answer within
  | cons reg rest ih =>
      simp only [List.mem_cons, forall_eq_or_imp] at destinations
      exact .bind_any fun value => ih (within.write destinations.1 value) _ destinations.2

theorem storeBlock_within (within : Within allowed before machine) (mode : Addressing) (address : Word) {regs : List Reg}
    (covered : ∀ index < regs.length, ∀ other, covers (blockAddress mode address index) 4 other = true →
      allowed.bytes other) :
    Ensures (fun done => Within allowed before done.1) (machine.storeBlock mode address regs) := by
  induction regs generalizing machine address with
  | nil => exact .answer within
  | cons reg rest ih =>
      have first := covered 0 (Nat.succ_pos _)
      rw [blockAddress_zero] at first
      refine .bind_any fun _ => (storeWord_within within first _).bind ?_
      intro after stored
      -- The rest starts from the next address, so that every index in it is one less.
      refine ih stored _ ?_
      intro index below
      rw [← blockAddress_succ]
      exact covered (index + 1) (Nat.succ_lt_succ below)

theorem blockTransfer_within (machine : Machine) (fields : BlockTransfer) :
    Ensures (fun done => Within ((Instruction.blockTransfer fields).footprint machine) machine done.1)
      (machine.blockTransfer fields) := by
  refine .bind_any fun _ => .bind_any fun _ => ?_
  cases transfer : fields.transfer with
  | load =>
      have destinations : ∀ reg ∈ fields.order,
          ((Instruction.blockTransfer fields).footprint machine).registers reg := by
        intro reg listed
        have lists : fields.lists reg = true := by
          have inside : reg ∈ fields.registers := by
            cases direction : fields.mode.direction <;> simpa [BlockTransfer.order, direction] using listed
          exact (List.mem_filter.mp inside).2
        exact Instruction.footprint_destination (by simp [Instruction.hasDestination, transfer, lists])
      refine (loadBlock_within (.refl _ machine) fields.mode _ destinations).bind ?_
      rintro ⟨after, last⟩ within
      refine .pure ?_
      show Within _ machine (if _ then _ else _)
      split
      next back =>
        simp only [Bool.and_eq_true] at back
        exact within.write (Instruction.footprint_base (by simp [Instruction.writesBack, back.1])) last
      next => exact within
  | store =>
      have stores : (Instruction.blockTransfer fields).storedRange? machine =
          some (fields.lowest (machine.read fields.rn), 4 * fields.registers.length) := by
        simp [Instruction.storedRange?, transfer]
      have covered : ∀ index < fields.order.length, ∀ other,
          covers (blockAddress fields.mode (machine.read fields.rn) index) 4 other = true →
            ((Instruction.blockTransfer fields).footprint machine).bytes other := by
        intro index below other inside
        rw [fields.length_order] at below
        exact Instruction.footprint_bytes stores (fields.covers_of_blockAddress below inside)
      refine (storeBlock_within (.refl _ machine) fields.mode _ covered).bind ?_
      rintro ⟨after, last⟩ within
      cases back : fields.mode.writeBack with
      | false => exact .pure within
      | true =>
          refine .bind_any fun _ => .pure ?_
          exact within.write (Instruction.footprint_base (by simp [Instruction.writesBack, back])) last

/-! ### Floating point -/

end Machine

namespace Vfp.Registers.Within

variable {allowed : Footprint} {before registers : Vfp.Registers}

theorem write (within : Within allowed before registers) (slots : allowed.slots) (slot : Slot) (value : Word) :
    Within allowed before (registers.write slot value) :=
  { within with slots := fun kept => absurd slots kept }

theorem put (within : Within allowed before registers) (slots : allowed.slots) (precision : Precision) (slot : Slot)
    (value : precision.Bits) : Within allowed before (registers.put precision slot value) := by
  cases precision with
  | single => exact within.write slots slot value
  | double => exact (within.write slots slot.lowHalf _).write slots slot.highHalf _

theorem applyElements (within : Within allowed before registers) (slots : allowed.slots) (precision : Precision)
    (function : precision.Bits → precision.Bits → precision.Bits → precision.Bits) (elements : List Operands) :
    Within allowed before (elements.foldl (applyElement · precision function ·) registers) := by
  induction elements generalizing registers with
  | nil => exact within
  | cons element rest ih => exact ih (within.put slots precision element.fd _)

theorem setCompareFlags (within : Within allowed before registers) (flags : Word)
    (compares : flagMask &&& ~~~allowed.fpscr = 0) : Within allowed before (registers.setCompareFlags flags) := by
  refine { within with fpscr := ?_ }
  have kept : (registers.setCompareFlags flags).fpscr &&& ~~~flagMask = registers.fpscr &&& ~~~flagMask :=
    replaced_and_not registers.fpscr flags flagMask
  exact (and_not_of_and_not kept compares).trans within.fpscr

theorem setSystem (within : Within allowed before registers) (whole : allowed.fpscr = 0xffffffff) (fpexc : allowed.fpexc)
    (system : SystemRegister) (value : Word) : Ensures (Within allowed before) (registers.setSystem system value) := by
  cases system with
  | fpsid => exact .answer within
  | fpscr => exact .answer { within with fpscr := by simp [whole] }
  | fpexc => exact .answer { within with fpexc := fun kept => absurd fpexc kept }
  | unknown index => exact .error _

theorem applyScalar (within : Within allowed before registers) (slots : allowed.slots) (precision : Precision)
    {op : ScalarOp} (compares : op.isCompare = true → flagMask &&& ~~~allowed.fpscr = 0) (fd fm : Slot) :
    Within allowed before (registers.applyScalar precision op fd fm) := by
  cases op with
  | fcmp | fcmpe | fcmpz | fcmpez => exact within.setCompareFlags _ (compares rfl)
  | fcvt =>
      cases precision with
      | single => exact within.put slots .double fd _
      | double => exact within.put slots .single fd _
  | fuito | fsito => exact within.put slots precision fd _
  | ftoui | ftouiz | ftosi | ftosiz => exact within.write slots fd _

theorem process (within : Within allowed before registers) {fields : DataProcessing} (slots : allowed.slots)
    (compares : fields.isCompare = true → flagMask &&& ~~~allowed.fpscr = 0) :
    Ensures (Within allowed before) (registers.process fields) := by
  unfold Registers.process
  cases kind : fields.op with
  | undefined opcode => exact .error _
  | arithmetic op => exact .answer (within.applyElements slots fields.precision op.compute _)
  | extension op =>
      cases op with
      | undefined selector => exact .error _
      | unary op => exact .answer (within.applyElements slots fields.precision _ _)
      | scalar scalar =>
          refine .answer (within.applyScalar slots fields.precision ?_ fields.fd fields.fm)
          intro compare
          exact compares (by simpa [DataProcessing.isCompare, ExtensionOp.isCompare, kind] using compare)

end Vfp.Registers.Within

namespace Machine

variable {allowed : Footprint} {before machine : Machine}

theorem loadSlots_within (within : Within allowed before machine) (slots : allowed.slots) (address : Word)
    (slot count : Nat) : Ensures (Within allowed before) (machine.loadSlots address slot count) := by
  induction count generalizing machine address slot with
  | zero => exact .answer within
  | succ count ih =>
      refine .bind_any fun value => .bind_any fun target => ?_
      exact ih (within.withVfp (within.vfp.write slots target value)) _ _

theorem storeSlots_within (within : Within allowed before machine) {address : Word} {count : Nat}
    (covered : ∀ index < count, ∀ other, covers (wordAddress address index) 4 other = true → allowed.bytes other)
    (slot : Nat) : Ensures (Within allowed before) (machine.storeSlots address slot count) := by
  induction count generalizing machine address slot with
  | zero => exact .answer within
  | succ count ih =>
      have first := covered 0 (Nat.succ_pos _)
      rw [Memory.Image.wordAddress_zero] at first
      refine .bind_any fun source => (storeWord_within within first _).bind ?_
      intro after stored
      refine ih stored ?_ _
      intro index below
      rw [← Memory.Image.wordAddress_succ]
      exact covered (index + 1) (Nat.succ_lt_succ below)

theorem transferSlots_within (within : Within allowed before machine) {transfer : Transfer} {address : Word} {count : Nat}
    (few : count ≤ 256) (slots : transfer = .load → allowed.slots)
    (covered : transfer = .store → ∀ other, covers address (4 * count) other = true → allowed.bytes other)
    (slot : Vfp.Slot) : Ensures (Within allowed before) (machine.transferSlots transfer address slot count) := by
  cases transfer with
  | load => exact loadSlots_within within (slots rfl) _ _ _
  | store =>
      refine storeSlots_within within ?_ _
      intro index below other inside
      exact covered rfl other (covers_of_covers_word below few inside)

theorem writeBackBase_within (within : Within allowed before machine) {rn : Reg} (base : allowed.registers rn)
    (value : Word) : Ensures (Within allowed before) (machine.writeBackBase rn value) :=
  .bind_any fun _ => .pure (within.write base value)

theorem vfpLoadStore_within (machine : Machine) (fields : Vfp.LoadStore) :
    Ensures (Within ((Instruction.vfp (.loadStore fields)).footprint machine) machine) (machine.vfpLoadStore fields) := by
  have slots : fields.transfer = .load → ((Instruction.vfp (.loadStore fields)).footprint machine).slots := by
    intro load
    simp [Instruction.footprint, Instruction.writesSlots, load]
  have covered : fields.transfer = .store → ∀ other,
      covers (fields.start (machine.operand fields.rn prefetch)) (4 * fields.wordCount) other = true →
        ((Instruction.vfp (.loadStore fields)).footprint machine).bytes other := by
    intro store other inside
    exact Instruction.footprint_bytes (by simp only [Instruction.storedRange?, store]) inside
  have base : fields.mode.updatesBase = true →
      ((Instruction.vfp (.loadStore fields)).footprint machine).registers fields.rn := by
    intro updates
    exact Instruction.footprint_base (by simp [Instruction.writesBack, updates])
  have few : fields.wordCount ≤ 256 := by
    have offset := fields.offset.isLt
    have words : fields.precision.words ≤ 256 := by cases fields.precision <;> decide
    unfold Vfp.LoadStore.wordCount
    split <;> omega
  unfold vfpLoadStore
  simp only [Vfp.LoadStore.start, Vfp.LoadStore.wordCount] at covered few
  cases mode : fields.mode with
  | unindexed =>
      rw [mode] at covered few
      exact transferSlots_within (.refl _ machine) few slots covered _
  | increment =>
      rw [mode] at covered few base
      refine (transferSlots_within (.refl _ machine) few slots covered _).bind ?_
      exact fun after moved => writeBackBase_within moved (base rfl) _
  | decrement =>
      rw [mode] at covered few base
      refine (transferSlots_within (.refl _ machine) few slots covered _).bind ?_
      exact fun after moved => writeBackBase_within moved (base rfl) _
  | positiveOffset =>
      rw [mode] at covered few
      exact transferSlots_within (.refl _ machine) few slots covered _
  | negativeOffset =>
      rw [mode] at covered few
      exact transferSlots_within (.refl _ machine) few slots covered _
  | undefined mode => exact .error _

theorem vfpRegisterTransfer_within (machine : Machine) (fields : Vfp.RegisterTransfer) :
    Ensures (Within ((Instruction.vfp (.registerTransfer fields)).footprint machine) machine)
      (machine.vfpRegisterTransfer fields) := by
  have destination : fields.op.isToCore = true →
      ((Instruction.vfp (.registerTransfer fields)).footprint machine).registers fields.rd := by
    intro core
    exact Instruction.footprint_destination (by simp [Instruction.hasDestination, core])
  have slots : fields.op.isToSlot = true → ((Instruction.vfp (.registerTransfer fields)).footprint machine).slots :=
    fun slot => slot
  unfold vfpRegisterTransfer
  split
  next moves =>
    have mask : (Instruction.vfp (.registerTransfer fields)).flagMask = Psr.flagMask := by
      simp [Instruction.flagMask, Instruction.setsFlags, Vfp.RegisterTransfer.isFlagMove, moves,
        Instruction.multiplies, Instruction.isLogical]
    refine .bind_any fun _ => .pure ((Within.refl _ machine).withStatus ?_)
    show _ &&& ~~~Instruction.flagMask _ = _ &&& ~~~Instruction.flagMask _
    rw [mask]
    exact Psr.setFlags_and_not
  next =>
    refine .bind_any fun _ => ?_
    cases op : fields.op with
    | fmsr | fmdlr | fmdhr =>
        rw [op] at slots
        exact .pure ((Within.refl _ machine).withVfp ((Vfp.Registers.Within.refl _ machine.vfp).write (slots rfl) _ _))
    | fmrs | fmrdl | fmrdh =>
        rw [op] at destination
        exact .pure ((Within.refl _ machine).write (destination rfl) _)
    | fmrx =>
        rw [op] at destination
        exact .bind_any fun value => .pure ((Within.refl _ machine).write (destination rfl) value)
    | fmxr =>
        have mask : (Instruction.vfp (.registerTransfer fields)).fpscrMask = 0xffffffff := by
          simp [Instruction.fpscrMask, Instruction.isSystemMove, op]
        have moves : ((Instruction.vfp (.registerTransfer fields)).footprint machine).fpexc := by
          simp [Instruction.footprint, Instruction.isSystemMove, op]
        have changed : Ensures (Vfp.Registers.Within ((Instruction.vfp (.registerTransfer fields)).footprint machine)
            machine.vfp) (machine.vfp.setSystem (.ofIndex fields.fn.toNat) (machine.read fields.rd)) :=
          Vfp.Registers.Within.setSystem (.refl _ machine.vfp) mask moves _ _
        exact changed.bind fun vfp within => .pure ((Within.refl _ machine).withVfp within)
    | undefined opcode => exact .error _

theorem executeVfp_within (machine : Machine) (instruction : Vfp.Instruction) :
    Ensures (Within ((Instruction.vfp instruction).footprint machine) machine) (machine.executeVfp instruction) := by
  cases instruction with
  | dataProcessing fields =>
      have slots : ((Instruction.vfp (.dataProcessing fields)).footprint machine).slots := rfl
      have compares : fields.isCompare = true →
          Vfp.Registers.flagMask &&& ~~~((Instruction.vfp (.dataProcessing fields)).footprint machine).fpscr = 0 := by
        intro compare
        have mask : (Instruction.vfp (.dataProcessing fields)).fpscrMask = Vfp.Registers.flagMask := by
          simp [Instruction.fpscrMask, Instruction.isSystemMove, Instruction.isCompare, compare]
        show Vfp.Registers.flagMask &&& ~~~Instruction.fpscrMask _ = 0
        rw [mask]
        decide
      refine (Vfp.Registers.Within.process (.refl _ machine.vfp) slots compares).bind ?_
      exact fun vfp changed => .pure ((Within.refl _ machine).withVfp changed)
  | loadStore fields => exact machine.vfpLoadStore_within fields
  | registerTransfer fields => exact machine.vfpRegisterTransfer_within fields

/-! ### Any instruction -/

theorem continuing_within {result : Except Refusal Machine} (ensures : Ensures (Within allowed before) result) :
    Ensures (fun done => Within allowed before done.1) (continuing result) :=
  ensures.map fun _ within => within

theorem perform_within (machine : Machine) (word : Word) (instruction : Instruction) :
    Ensures (fun done => Within (instruction.footprint machine) machine done.1) (machine.perform word instruction) := by
  cases instruction with
  | dataProcessing fields => exact machine.dataProcessing_within fields
  | psrTransfer saved op => exact continuing_within (machine.psrTransfer_within saved op)
  | multiply fields => exact continuing_within (machine.multiply_within fields)
  | multiplyLong fields => exact continuing_within (machine.multiplyLong_within fields)
  | countLeadingZeros rd rm => exact continuing_within (machine.countLeadingZeros_within rd rm)
  | swap fields => exact continuing_within (machine.swap_within fields)
  | halfwordTransfer fields => exact machine.halfwordTransfer_within fields
  | singleTransfer fields => exact machine.singleTransfer_within fields
  | blockTransfer fields => exact machine.blockTransfer_within fields
  | branch link offset => exact machine.branch_within link offset
  | undefined => exact .error _
  | coprocessor => exact .error _
  | vfp instruction => exact continuing_within (machine.executeVfp_within instruction)

end Machine

end Arm32
