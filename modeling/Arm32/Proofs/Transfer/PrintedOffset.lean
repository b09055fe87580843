import Arm32.Disassembly.Basic
import Arm32.Proofs.Transfer.SavedSlots
import Arm32.Proofs.Transfer.Unit

/-! Offsets as they are printed and as they are carried out. The printer works out a signed number, and the machine adds
words or takes them away; the base and the number in the text still come to the address of the access. -/

namespace Arm32

open Memory (AccessSize)

/-- What a transfer moves: a number and a core register, or words and the slots of a floating-point register. -/
inductive Cargo where
  | number (size : AccessSize) (signed : Bool) (rd : Reg)
  | register (precision : Vfp.Precision) (fd : Vfp.Slot)
  deriving DecidableEq, Repr

namespace Cargo

def name : Cargo → String
  | number _ _ rd => rd.name
  | register precision fd => precision.register fd.toNat

/-- The words of the register, lowest slot first. -/
def words (precision : Vfp.Precision) (fd : Vfp.Slot) (registers : Vfp.Registers) : List Word :=
  registers.slotsFrom (fd.aligned precision).toNat precision.words

/-- The one access of the transfer has been made at the address. A store takes its register when the base has already
been moved. -/
def MovedAt (cargo : Cargo) (transfer : Transfer) (address : Word) (before after : Machine) : Prop :=
  match transfer, cargo with
  | .load, number size signed rd =>
    after.memory = before.memory ∧ ∃ value, before.memory.load size address = .ok value ∧
      after.read rd = if signed then value.signExtend 32 else value.setWidth 32
  | .load, register precision fd =>
    after.memory = before.memory ∧ before.memory.HoldsWords address (words precision fd after.vfp)
  | .store, number size _ rd =>
    before.memory.store size address ((after.storeOperand rd).setWidth size.bits) = .ok after.memory
  | .store, register precision fd =>
    before.memory.storeWords address (words precision fd before.vfp) = .ok after.memory

end Cargo

/-- A transfer at an offset that stands in the instruction, by so many bytes up or down. -/
structure OffsetTransfer where
  transfer : Transfer
  cargo : Cargo
  mode : Addressing
  rn : Reg
  bytes : BitVec 12
  deriving DecidableEq, Repr

namespace OffsetTransfer

variable (shown : OffsetTransfer)

/-- The offset as a number. It is counted from the instruction if the program counter is the base. -/
def offset : Int :=
  (match shown.mode.direction with
    | .up => (shown.bytes.toNat : Int)
    | .down => -shown.bytes.toNat) +
  if shown.rn = Reg.pc then 8 else 0

/-- The offset as a word, without its sign. -/
def amount : Word := shown.bytes.setWidth 32

def loads (reg : Reg) : Bool :=
  match shown.transfer, shown.cargo with
  | .load, .number _ _ rd => rd == reg
  | _, _ => false

end OffsetTransfer

/-- A number as an immediate operand. -/
def ImmediateStyle.writeNumber (style : ImmediateStyle) (number : Int) : String :=
  match style with
  | decimal => "#" ++ toString number
  | hex => "#" ++ Hex.word (BitVec.ofInt 32 number)

namespace OffsetTransfer

variable (shown : OffsetTransfer)

/-- The base and the offset between brackets, or the offset after them. No offset is written for zero, and then no mark
of write-back either. -/
def place (style : ImmediateStyle) : String :=
  let base := "[" ++ shown.rn.name
  let offset := ", " ++ style.writeNumber shown.offset
  if shown.offset = 0 then base ++ "]"
  else
    match shown.mode.indexing with
    | .pre => base ++ offset ++ "]" ++ if shown.mode.writeBack then "!" else ""
    | .post => base ++ "]" ++ offset

def operands (style : ImmediateStyle) : String := shown.cargo.name ++ ", " ++ shown.place style

/-- What the base and the offset come to, modulo 2^32. The program counter holds the address of the instruction. -/
def target (machine : Machine) : Word := machine.read shown.rn + BitVec.ofInt 32 shown.offset

/-- The access is at the base and the offset taken together. After post-indexing it is at the base alone, and it is the
base that has come to be both together, unless it has been loaded. -/
def MadeAsShown (before after : Machine) : Prop :=
  match shown.mode.indexing with
  | .pre => shown.cargo.MovedAt shown.transfer (shown.target before) before after
  | .post =>
    shown.rn ≠ Reg.pc ∧ shown.cargo.MovedAt shown.transfer (before.read shown.rn) before after ∧
      (shown.loads shown.rn = false → after.read shown.rn = shown.target before)

end OffsetTransfer

/-! ### Instructions at an offset of their own -/

def SingleTransfer.offsetTransfer? (fields : SingleTransfer) : Option OffsetTransfer :=
  match fields.offset with
  | .immediate offset =>
    some
      { transfer := fields.transfer
        cargo := .number fields.quantity.size false fields.rd
        mode := fields.mode
        rn := fields.rn
        bytes := offset }
  | .register _ => none

def HalfwordTransfer.offsetTransfer? (fields : HalfwordTransfer) : Option OffsetTransfer :=
  match fields.offset with
  | .immediate offset =>
    some
      { transfer := fields.transfer
        cargo := .number fields.kind.size fields.kind.isSigned fields.rd
        mode := fields.mode
        rn := fields.rn
        bytes := offset.setWidth 12 }
  | .register _ => none

/-- The transfer of a single register. Its offset is counted in words. -/
def Vfp.LoadStore.atOffset (fields : LoadStore) (direction : Direction) : OffsetTransfer :=
  { transfer := fields.transfer
    cargo := .register fields.precision fields.fd
    mode := { indexing := .pre, direction, writeBack := false }
    rn := fields.rn
    bytes := fields.offset.setWidth 12 * 4 }

def Vfp.LoadStore.offsetTransfer? (fields : LoadStore) : Option OffsetTransfer :=
  match fields.mode with
  | .positiveOffset => some (fields.atOffset .up)
  | .negativeOffset => some (fields.atOffset .down)
  | _ => none

def Instruction.offsetTransfer? : Instruction → Option OffsetTransfer
  | singleTransfer fields => fields.offsetTransfer?
  | halfwordTransfer fields => fields.offsetTransfer?
  | vfp (.loadStore fields) => fields.offsetTransfer?
  | _ => none

namespace OffsetTransfer

variable {shown : OffsetTransfer}

/-! ### The text -/

theorem toInt_ofInt_offset (shown : OffsetTransfer) : (BitVec.ofInt 32 shown.offset).toInt = shown.offset := by
  have bound : shown.bytes.toNat < 4096 := shown.bytes.isLt
  rw [BitVec.toInt_ofInt, offset]
  apply Int.bmod_eq_of_le <;> cases shown.mode.direction <;> simp only <;> split <;> omega

theorem ofInt_offset_eq_zero_iff : BitVec.ofInt 32 shown.offset = 0 ↔ shown.offset = 0 := by
  rw [← BitVec.toInt_inj, toInt_ofInt_offset]
  rfl

/-- What the printer works out is the offset. -/
theorem printedOffset_eq (shown : OffsetTransfer) :
    printedOffset shown.mode.direction shown.rn prefetch shown.amount = BitVec.ofInt 32 shown.offset := by
  have amount : shown.amount = BitVec.ofInt 32 shown.bytes.toNat := by
    rw [BitVec.ofInt_natCast, BitVec.ofNat_toNat, OffsetTransfer.amount]
  rw [printedOffset, offset, BitVec.ofInt_add, amount]
  cases shown.mode.direction <;> by_cases base : shown.rn = Reg.pc <;>
    simp [Direction.apply, BitVec.ofInt_neg, base, prefetch]

theorem write_ofInt_offset (style : ImmediateStyle) :
    style.write (BitVec.ofInt 32 shown.offset) = style.writeNumber shown.offset := by
  cases style with
  | decimal => rw [ImmediateStyle.write, toInt_ofInt_offset, ImmediateStyle.writeNumber]
  | hex => rfl

theorem renderImmediate_eq (style : ImmediateStyle) :
    shown.mode.renderImmediate style shown.rn
      (printedOffset shown.mode.direction shown.rn prefetch shown.amount) = shown.place style := by
  -- The printer writes the bracket and the comma after it in one piece.
  have closed : "], " = "]" ++ ", " := rfl
  rw [printedOffset_eq, Addressing.renderImmediate, place]
  simp only [ofInt_offset_eq_zero_iff, write_ofInt_offset, closed]
  by_cases zero : shown.offset = 0
  · cases shown.mode.indexing <;> simp only [zero, if_true]
  · cases shown.mode.indexing <;> simp only [zero, if_false, String.append_assoc]

end OffsetTransfer

theorem Vfp.LoadStore.mode_of_offsetTransfer? {fields : LoadStore} {shown : OffsetTransfer}
    (transfers : fields.offsetTransfer? = some shown) :
    fields.mode = .positiveOffset ∧ shown = fields.atOffset .up ∨
      fields.mode = .negativeOffset ∧ shown = fields.atOffset .down := by
  unfold offsetTransfer? at transfers
  split at transfers
  next mode =>
    cases transfers
    exact .inl ⟨mode, rfl⟩
  next mode =>
    cases transfers
    exact .inr ⟨mode, rfl⟩
  next => cases transfers

/-- Words come to as many bytes in the width of the offset as in that of the base. -/
theorem Vfp.LoadStore.amount_atOffset {fields : LoadStore} {direction : Direction} :
    (fields.atOffset direction).amount = fields.offset.setWidth 32 * 4 := by
  simp only [OffsetTransfer.amount, atOffset]
  bv_omega

theorem HalfwordTransfer.setWidth_setWidth_offset (offset : BitVec 8) :
    ((offset.setWidth 12).setWidth 32 : Word) = offset.setWidth 32 := by
  bv_omega

namespace OffsetTransfer

variable {shown : OffsetTransfer} {style : ImmediateStyle} {condition : Condition}

theorem columns_of_singleTransfer {fields : SingleTransfer} (transfers : fields.offsetTransfer? = some shown) :
    ∃ mnemonic, fields.render style condition = .columns mnemonic (shown.operands style) := by
  unfold SingleTransfer.offsetTransfer? at transfers
  split at transfers
  next offset immediate =>
    cases transfers
    rw [SingleTransfer.render, immediate, operands, ← renderImmediate_eq]
    exact ⟨_, rfl⟩
  next => cases transfers

theorem columns_of_halfwordTransfer {fields : HalfwordTransfer} (transfers : fields.offsetTransfer? = some shown) :
    ∃ mnemonic, fields.render style condition = .columns mnemonic (shown.operands style) := by
  unfold HalfwordTransfer.offsetTransfer? at transfers
  split at transfers
  next offset immediate =>
    cases transfers
    rw [HalfwordTransfer.render, immediate, operands, ← renderImmediate_eq, amount,
      HalfwordTransfer.setWidth_setWidth_offset]
    exact ⟨_, rfl⟩
  next => cases transfers

theorem columns_of_renderOffset {fields : Vfp.LoadStore} {direction : Direction} :
    ∃ mnemonic, fields.renderOffset direction style condition =
      .columns mnemonic ((fields.atOffset direction).operands style) := by
  have printed : fields.printed direction = BitVec.ofInt 32 (fields.atOffset direction).offset := by
    rw [← printedOffset_eq, Vfp.LoadStore.amount_atOffset]
    rfl
  have opened : ", [" = ", " ++ "[" := rfl
  rw [Vfp.LoadStore.renderOffset, printed]
  refine ⟨_, congrArg (Layout.columns _) ?_⟩
  rw [operands, place, opened]
  by_cases zero : (fields.atOffset direction).offset = 0
  · rw [if_pos (ofInt_offset_eq_zero_iff.mpr zero), if_pos zero]
    simp only [Vfp.LoadStore.atOffset, Cargo.name, String.append_assoc, String.append_empty, -String.reduceAppend]
  · rw [if_neg (mt ofInt_offset_eq_zero_iff.mp zero), if_neg zero, write_ofInt_offset]
    simp only [Vfp.LoadStore.atOffset, Cargo.name, String.append_assoc, Bool.false_eq_true, if_false,
      String.append_empty, -String.reduceAppend]

theorem columns_of_loadStore {fields : Vfp.LoadStore} (transfers : fields.offsetTransfer? = some shown) :
    ∃ mnemonic, fields.render style condition = .columns mnemonic (shown.operands style) := by
  rw [Vfp.LoadStore.render]
  rcases Vfp.LoadStore.mode_of_offsetTransfer? transfers with ⟨mode, rfl⟩ | ⟨mode, rfl⟩
  · rw [mode]
    exact columns_of_renderOffset
  · rw [mode]
    exact columns_of_renderOffset

theorem layout_eq {word : Word} (transfers : (Instruction.decode word).offsetTransfer? = some shown)
    (settings : ListingSettings) :
    ∃ mnemonic, (disassemble settings word).layout = .columns mnemonic (shown.operands settings.style) := by
  unfold disassemble
  cases instruction : Instruction.decode word with
  | singleTransfer fields =>
      rw [instruction] at transfers
      exact columns_of_singleTransfer transfers
  | halfwordTransfer fields =>
      rw [instruction] at transfers
      exact columns_of_halfwordTransfer transfers
  | vfp inner =>
      rw [instruction] at transfers
      cases inner with
      | loadStore fields => exact columns_of_loadStore transfers
      | _ => cases transfers
  | _ =>
      rw [instruction] at transfers
      cases transfers

end OffsetTransfer

/-! ### The access -/

/-- A transfer of one number whose offset is so many bytes. -/
def UnitTransfer.atOffset (moved : UnitTransfer) (bytes : BitVec 12) : OffsetTransfer :=
  { transfer := moved.transfer
    cargo := .number moved.size moved.signed moved.rd
    mode := moved.mode
    rn := moved.rn
    bytes }

section

variable {machine : Machine} {shown : OffsetTransfer}

theorem SingleTransfer.atOffset_of_offsetTransfer? {fields : SingleTransfer}
    (transfers : fields.offsetTransfer? = some shown) :
    ∃ bytes, shown = (fields.unit machine).atOffset bytes ∧ (fields.unit machine).amount = bytes.setWidth 32 := by
  unfold offsetTransfer? at transfers
  split at transfers
  next offset immediate =>
    cases transfers
    refine ⟨offset, rfl, ?_⟩
    rw [unit, immediate]
    rfl
  next => cases transfers

theorem HalfwordTransfer.atOffset_of_offsetTransfer? {fields : HalfwordTransfer}
    (transfers : fields.offsetTransfer? = some shown) :
    ∃ bytes, shown = (fields.unit machine).atOffset bytes ∧ (fields.unit machine).amount = bytes.setWidth 32 := by
  unfold offsetTransfer? at transfers
  split at transfers
  next offset immediate =>
    cases transfers
    refine ⟨offset.setWidth 12, rfl, ?_⟩
    rw [unit, immediate]
    exact (setWidth_setWidth_offset offset).symm
  next => cases transfers

end

namespace Machine

open Vfp (Precision Slot)

variable {machine before : Machine} {moved : UnitTransfer} {address : Word} {bytes : BitVec 12}

/-- The sum that the machine makes in words, up or down, is that of the base and the number in the text. -/
theorem apply_operand (machine : Machine) (shown : OffsetTransfer) :
    shown.mode.direction.apply (machine.operand shown.rn prefetch) shown.amount = shown.target machine := by
  rw [OffsetTransfer.target, ← shown.printedOffset_eq, operand, printedOffset]
  cases shown.mode.direction <;> simp only [Direction.apply] <;> split <;> bv_omega

theorem base_eq_operand : moved.base machine = machine.operand moved.rn prefetch := by
  unfold UnitTransfer.base operand
  split
  next counter => rw [counter, prefetch]
  next => rfl

theorem accessUnit_movedAt (same : machine.memory = before.memory) :
    Ensures (fun done => (Cargo.number moved.size moved.signed moved.rd).MovedAt moved.transfer address before done.1)
      (machine.accessUnit moved address) := by
  unfold accessUnit Cargo.MovedAt
  cases moved.transfer with
  | load =>
      refine .bind_found ?_
      intro value loaded
      refine .pure ⟨same, value, ?_, ?_⟩
      · rw [← same]
        exact loadUnit_eq_ok_iff.mp loaded
      · exact (machine.read_write moved.rd moved.rd _).trans (if_pos rfl)
  | store =>
      refine .bind_found ?_
      intro after stored
      obtain ⟨memory, put, rfl⟩ := storeUnit_eq_ok_iff.mp stored
      refine .pure ?_
      rw [same] at put
      exact put

/-- The base has moved, unless it has been loaded. -/
theorem read_base_of_transferred {after : Machine} (transferred : moved.Transferred machine after)
    (unloaded : (moved.atOffset bytes).loads moved.rn = false) : after.read moved.rn = moved.baseAfter machine := by
  unfold UnitTransfer.Transferred at transferred
  cases transfer : moved.transfer with
  | load =>
      rw [transfer] at transferred
      have apart : moved.rd ≠ moved.rn := by
        simpa [OffsetTransfer.loads, UnitTransfer.atOffset, transfer] using unloaded
      exact transferred.base apart.symm
  | store =>
      rw [transfer] at transferred
      exact transferred.base

theorem transferUnit_madeAsShown (permitted : moved.mode.isForbidden moved.rn = false)
    (amount : moved.amount = bytes.setWidth 32) :
    Ensures (fun done => (moved.atOffset bytes).MadeAsShown machine done.1) (machine.transferUnit moved) := by
  intro done executed
  rw [transferUnit_eq permitted] at executed
  have memory : (moved.writtenBack machine).memory = machine.memory := rfl
  have access := accessUnit_movedAt memory done executed
  have transferred := accessUnit_transferred permitted done executed
  have target : moved.movedBase machine = (moved.atOffset bytes).target machine := by
    rw [← apply_operand, UnitTransfer.movedBase, base_eq_operand, amount]
    rfl
  unfold OffsetTransfer.MadeAsShown
  cases indexing : (moved.atOffset bytes).mode.indexing with
  | pre =>
      have indexing : moved.mode.indexing = .pre := indexing
      rw [UnitTransfer.address, indexing] at access
      rw [← target]
      exact access
  | post =>
      have indexing : moved.mode.indexing = .post := indexing
      have updates : moved.mode.updatesBase = true := by simp [Addressing.updatesBase, indexing]
      -- A base that moves is not the program counter, so that it does not read ahead as the address either.
      have counter : moved.rn ≠ Reg.pc := fun base => by simp [keeps_of_pc permitted base] at updates
      have base : moved.base machine = machine.read moved.rn := if_neg counter
      rw [UnitTransfer.address, indexing] at access
      refine ⟨counter, base ▸ access, fun unloaded => ?_⟩
      calc done.1.read moved.rn
        _ = moved.baseAfter machine := read_base_of_transferred transferred unloaded
        _ = moved.movedBase machine := if_pos updates
        _ = (moved.atOffset bytes).target machine := target

/-! ### The slots of a register -/

theorem withMemory_eq_ok_iff {result : Except Memory.Fault Memory.Image} {after : Machine} :
    machine.withMemory result = .ok after ↔ ∃ memory, result = .ok memory ∧ after = { machine with memory } := by
  cases result <;> simp [withMemory, eq_comm]

/-- Whatever is loaded into slots has been found in memory. -/
theorem exists_holdsWords_of_loadSlots {first count : Nat} :
    Ensures (fun _ => ∃ words, words.length = count ∧ machine.memory.HoldsWords address words)
      (machine.loadSlots address first count) := by
  induction count generalizing machine address first with
  | zero => exact .answer ⟨[], rfl, by simp [Memory.Image.HoldsWords]⟩
  | succ count ih =>
      refine .bind_found ?_
      intro word loaded
      refine .bind_any ?_
      intro target after rest
      obtain ⟨words, length, holds⟩ := ih after rest
      refine ⟨word :: words, by rw [List.length_cons, length], ?_⟩
      intro index below
      cases index with
      | zero =>
          rw [Memory.Image.wordAddress_zero]
          exact loadWord_eq_ok_iff.mp loaded
      | succ index =>
          rw [Memory.Image.wordAddress_succ]
          exact holds index (Nat.lt_of_succ_lt_succ below)

theorem transferSlots_movedAt {precision : Precision} {fd : Slot} {transfer : Transfer} :
    Ensures ((Cargo.register precision fd).MovedAt transfer address machine)
      (machine.transferSlots transfer address (fd.aligned precision) precision.words) := by
  have fits := Vfp.aligned_add_words_le fd precision
  intro after executed
  cases transfer with
  | load =>
      -- Each word was found in memory, and words that are there fill the slots.
      obtain ⟨words, length, holds⟩ := exists_holdsWords_of_loadSlots after executed
      obtain ⟨vfp, loaded, filled⟩ := loadSlots_filled holds (by rwa [length])
      have slots := filled.slots
      rw [length] at loaded slots
      cases executed.symm.trans loaded
      refine ⟨rfl, ?_⟩
      rw [Cargo.words, slots]
      exact holds
  | store =>
      rw [transferSlots, storeSlots_eq fits] at executed
      obtain ⟨memory, stored, rfl⟩ := withMemory_eq_ok_iff.mp executed
      exact stored

theorem transferSlots_madeAsShown {fields : Vfp.LoadStore} {direction : Direction} :
    Ensures ((fields.atOffset direction).MadeAsShown machine)
      (machine.transferSlots fields.transfer
        (direction.apply (machine.operand fields.rn prefetch) (fields.offset.setWidth 32 * 4))
        (fields.fd.aligned fields.precision) fields.precision.words) := by
  have target : direction.apply (machine.operand fields.rn prefetch) (fields.offset.setWidth 32 * 4) =
      (fields.atOffset direction).target machine := by
    rw [← Vfp.LoadStore.amount_atOffset]
    exact apply_operand machine (fields.atOffset direction)
  rw [target]
  exact transferSlots_movedAt

theorem vfpLoadStore_madeAsShown {fields : Vfp.LoadStore} {shown : OffsetTransfer}
    (transfers : fields.offsetTransfer? = some shown) :
    Ensures (shown.MadeAsShown machine) (machine.vfpLoadStore fields) := by
  rw [vfpLoadStore]
  rcases Vfp.LoadStore.mode_of_offsetTransfer? transfers with ⟨mode, rfl⟩ | ⟨mode, rfl⟩
  · rw [mode]
    exact transferSlots_madeAsShown
  · rw [mode]
    exact transferSlots_madeAsShown

/-! ### Instructions -/

theorem perform_madeAsShown {instruction : Instruction} {shown : OffsetTransfer} {word : Word}
    (transfers : instruction.offsetTransfer? = some shown) :
    Ensures (fun done => shown.MadeAsShown machine done.1) (machine.perform word instruction) := by
  cases forbidden : instruction.isForbidden with
  | true =>
      obtain ⟨refusal, refused⟩ : Refused (machine.perform word instruction) := perform_refused forbidden
      rw [refused]
      exact .error refusal
  | false =>
      have ofUnit {moved : UnitTransfer} {bytes : BitVec 12} (unit : instruction.unitTransfer? machine = some moved)
          (same : shown = moved.atOffset bytes) (amount : moved.amount = bytes.setWidth 32) :
          Ensures (fun done => shown.MadeAsShown machine done.1) (machine.perform word instruction) := by
        obtain ⟨performed, permitted⟩ := @perform_unitTransfer _ _ _ word unit forbidden
        rw [performed, same]
        exact transferUnit_madeAsShown permitted amount
      cases instruction with
      | singleTransfer fields =>
          obtain ⟨bytes, same, amount⟩ := fields.atOffset_of_offsetTransfer? transfers
          exact ofUnit rfl same amount
      | halfwordTransfer fields =>
          obtain ⟨bytes, same, amount⟩ := fields.atOffset_of_offsetTransfer? transfers
          exact ofUnit rfl same amount
      | vfp inner =>
          cases inner with
          | loadStore fields => exact (vfpLoadStore_madeAsShown transfers).map fun after made => made
          | _ => cases transfers
      | _ => cases transfers

/-- The offset in the text of a transfer is the one that is carried out. The operands end in the base and a signed
number; if the transfer is made, its address is the sum of both, or the base has become their sum after it. -/
theorem execute_madeAsShown {shown : OffsetTransfer} {word : Word}
    (transfers : (Instruction.decode word).offsetTransfer? = some shown) :
    (∀ settings, ∃ mnemonic, (disassemble settings word).layout = .columns mnemonic (shown.operands settings.style)) ∧
      ∀ (machine after : Machine) (flow : Flow), machine.status.holds (Condition.ofWord word) = true →
        machine.execute word = .ok (after, flow) → shown.MadeAsShown machine after := by
  refine ⟨OffsetTransfer.layout_eq transfers, ?_⟩
  intro machine after flow holds executed
  rw [execute_of_holds holds] at executed
  exact perform_madeAsShown transfers _ executed

/-- A double is stored ahead of the instruction, at an offset that its encoding has as zero. The base of a halfword is
moved down past zero afterwards. -/
theorem execute_madeAsShown_ends :
    (∃ mnemonic after, (disassemble ⟨.arm7, .big, false⟩ 0xED8F1B00).layout = .columns mnemonic "d1, [r15, #8]" ∧
        withPatterns.execute 0xED8F1B00 = .ok (after, .next) ∧
        withPatterns.memory.storeWords 8 [0x7fc01234, 0xff800001] = .ok after.memory) ∧
      ∃ mnemonic after, (disassemble ⟨.arm7, .big, false⟩ 0xE040D0B4).layout = .columns mnemonic "r13, [r0], #-4" ∧
        withPatterns.execute 0xE040D0B4 = .ok (after, .next) ∧ after.read 0 = 0xfffffffc := by
  have ahead : withPatterns.execute 0xED8F1B00 = .ok (_, .next) := rfl
  have behind : withPatterns.execute 0xE040D0B4 = .ok (_, .next) := rfl
  obtain ⟨text, made⟩ := @execute_madeAsShown _ 0xED8F1B00 rfl
  obtain ⟨mnemonic, columns⟩ := text ⟨.arm7, .big, false⟩
  obtain ⟨otherText, otherMade⟩ := @execute_madeAsShown _ 0xE040D0B4 rfl
  obtain ⟨otherMnemonic, otherColumns⟩ := otherText ⟨.arm7, .big, false⟩
  refine ⟨⟨mnemonic, _, columns, ahead, made _ _ _ rfl ahead⟩, otherMnemonic, _, otherColumns, behind, ?_⟩
  exact (otherMade _ _ _ rfl behind).2.2 rfl

end Machine

end Arm32
