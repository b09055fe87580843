import Arm32.Disassembly.Basic
import Arm32.Proofs.Safety.Vfp

/-! The text of a word with checks. Most of a text is copied from the fields of the instruction. What is computed for it
are rotated immediates, offsets in signed arithmetic, and the ends of register lists. -/

namespace Arm32

open Bits (checkedAdd checkedMul checkedSub)

/-! ### Core instructions -/

/-- An offset as printed, in signed arithmetic. -/
def checkedPrintedOffset (direction : Direction) (rn : Reg) (offset : Word) : Option Word := do
  let offset ←
    match direction with
    | .up => some offset
    | .down => Bits.checkedNeg offset
  if rn = Reg.pc then Bits.checkedSignedAdd offset prefetch else some offset

theorem toInt_of_small {value : Word} (small : value.toNat < 4096) : value.toInt = value.toNat :=
  BitVec.toInt_eq_toNat_of_lt (by omega)

theorem toInt_neg_of_small {value : Word} (small : value.toNat < 4096) : (-value).toInt = -value.toNat := by
  rw [BitVec.toInt_neg, toInt_of_small small]
  exact Int.bmod_eq_of_le (by omega) (by omega)

theorem checkedPrintedOffset_eq {direction : Direction} {rn : Reg} {offset : Word} (small : offset.toNat < 4096) :
    checkedPrintedOffset direction rn offset = some (printedOffset direction rn prefetch offset) := by
  -- Twelve bits leave room for the sign and for the look-ahead.
  have ahead (value : Word) (low : -4096 < value.toInt) (high : value.toInt < 4096) :
      Bits.checkedSignedAdd value prefetch = some (value + prefetch) := by
    have look : prefetch.toInt = 8 := rfl
    have fits : BitVec.saddOverflow value prefetch = false := by
      simp [BitVec.saddOverflow, look]
      omega
    rw [Bits.checkedSignedAdd, fits]
    rfl
  cases direction with
  | up =>
      have sum := ahead offset (by rw [toInt_of_small small]; omega) (by rw [toInt_of_small small]; omega)
      by_cases base : rn = Reg.pc <;> simp [checkedPrintedOffset, printedOffset, Direction.apply, base, sum]
  | down =>
      have sum := ahead (-offset) (by rw [toInt_neg_of_small small]; omega) (by rw [toInt_neg_of_small small]; omega)
      have opposite : Bits.checkedNeg offset = some (-offset) := by
        have fits : BitVec.negOverflow offset = false := by
          simp [BitVec.negOverflow, toInt_of_small small]
        rw [Bits.checkedNeg, fits]
        rfl
      by_cases base : rn = Reg.pc <;> simp [checkedPrintedOffset, printedOffset, Direction.apply, base, opposite, sum]

def Operand2.checkedRender (style : ImmediateStyle) : Operand2 → Option String
  | immediate base rotate => do
    let value ← Shifter.checkedRotated (base.setWidth 32) (rotate.setWidth 32)
    return style.write value
  | register operand => some (operand.render style)

theorem Operand2.checkedRender_eq {style : ImmediateStyle} (operand : Operand2) :
    operand.checkedRender style = some (operand.render style) := by
  cases operand with
  | immediate base rotate => simp [checkedRender, render, Shifter.checkedRotated_eq]
  | register operand => rfl

def DataProcessing.checkedRender (fields : DataProcessing) (style : ImmediateStyle) (condition : Condition) :
    Option Layout := do
  let mnemonic := fields.op.mnemonic ++ condition.suffix
  let second ← fields.operand.checkedRender style
  if fields.op.isTest then return .columns mnemonic (fields.rn.name ++ ", " ++ second)
  else if fields.op.isMove then
    return .columns (mnemonic ++ flagSuffix fields.setFlags) (fields.rd.name ++ ", " ++ second)
  else
    return .columns (mnemonic ++ flagSuffix fields.setFlags)
      (fields.rd.name ++ ", " ++ fields.rn.name ++ ", " ++ second)

theorem DataProcessing.checkedRender_eq {style : ImmediateStyle} {condition : Condition} (fields : DataProcessing) :
    fields.checkedRender style condition = some (fields.render style condition) := by
  simp only [checkedRender, render, Operand2.checkedRender_eq, Option.bind_eq_bind, Option.bind_some, Option.pure_def]
  split
  · rfl
  · split <;> rfl

def PsrOp.checkedRender (op : PsrOp) (style : ImmediateStyle) (condition : Condition) : Option Layout :=
  match op with
  | writeFlags (.immediate field) => do
    let value ← Shifter.checkedImmediate field
    return .columns ("msr" ++ condition.suffix) ("CPSR_flg, " ++ style.write value)
  | op => some (op.render style condition)

theorem PsrOp.checkedRender_eq {style : ImmediateStyle} {condition : Condition} (op : PsrOp) :
    op.checkedRender style condition = some (op.render style condition) := by
  cases op with
  | writeFlags source =>
      cases source with
      | immediate field => simp [checkedRender, render, Shifter.checkedImmediate_eq]
      | register rm => rfl
  | read rd | write rm | undefined => rfl

namespace SingleTransfer

variable {style : ImmediateStyle} {condition : Condition}

def checkedPrinted (fields : SingleTransfer) (offset : BitVec 12) : Option Word :=
  checkedPrintedOffset fields.mode.direction fields.rn (offset.setWidth 32)

def checkedRender (fields : SingleTransfer) (style : ImmediateStyle) (condition : Condition) : Option Layout := do
  let operand ←
    match fields.offset with
    | .immediate offset => do
      let printed ← fields.checkedPrinted offset
      pure (fields.mode.renderImmediate style fields.rn printed)
    | .register operand => some (fields.mode.renderRegister fields.rn (operand.render style))
  return .columns
    (fields.transfer.mnemonic ++ condition.suffix ++ fields.quantity.suffix ++ writeBackSuffix fields.mode)
    (fields.rd.name ++ ", " ++ operand)

def checkedNotes (fields : SingleTransfer) (condition : Condition) : Option (List Note) :=
  match fields.offset with
  | .immediate offset => do
    let printed ← fields.checkedPrinted offset
    return condition.notes ++
      Note.when (fields.mode.indexing == .post && fields.mode.writeBack) .writeBackAfterPostIndexing ++
      fields.mode.immediateNotes fields.rn printed
  | .register _ => some (fields.notes condition)

theorem checkedPrinted_eq (fields : SingleTransfer) (offset : BitVec 12) :
    fields.checkedPrinted offset = some (fields.printed offset) := by
  have same : (offset.setWidth 32).toNat = offset.toNat := BitVec.toNat_setWidth_of_le (by decide)
  exact checkedPrintedOffset_eq (by rw [same]; exact offset.isLt)

theorem checkedRender_eq (fields : SingleTransfer) :
    fields.checkedRender style condition = some (fields.render style condition) := by
  cases offset : fields.offset <;> simp [checkedRender, render, offset, checkedPrinted_eq]

theorem checkedNotes_eq (fields : SingleTransfer) : fields.checkedNotes condition = some (fields.notes condition) := by
  cases offset : fields.offset <;> simp [checkedNotes, notes, offset, checkedPrinted_eq]

end SingleTransfer

namespace HalfwordTransfer

variable {style : ImmediateStyle} {condition : Condition}

def checkedPrinted (fields : HalfwordTransfer) (offset : BitVec 8) : Option Word :=
  checkedPrintedOffset fields.mode.direction fields.rn (offset.setWidth 32)

def checkedRender (fields : HalfwordTransfer) (style : ImmediateStyle) (condition : Condition) : Option Layout := do
  let operand ←
    match fields.offset with
    | .immediate offset => do
      let printed ← fields.checkedPrinted offset
      pure (fields.mode.renderImmediate style fields.rn printed)
    | .register rm => some (fields.mode.renderRegister fields.rn rm.name)
  return .columns (fields.transfer.mnemonic ++ condition.suffix ++ fields.kind.suffix)
    (fields.rd.name ++ ", " ++ operand)

def checkedNotes (fields : HalfwordTransfer) (condition : Condition) : Option (List Note) := do
  let signedStore := fields.transfer == .store && fields.kind.isSigned
  let operandNotes ←
    match fields.offset with
    | .immediate offset => do
      let printed ← fields.checkedPrinted offset
      pure (fields.mode.immediateNotes fields.rn printed)
    | .register rm => some (Note.when (rm == Reg.pc) .offsetInProgramCounter)
  return Note.when (fields.kind == .swap) .swapAmongHalfwords ++ condition.notes ++
    Note.when (signedStore && fields.kind.isHalfword) .signedHalfwordStore ++
    Note.when (!fields.kind.isHalfword && !fields.kind.isSigned) .unsignedByteAmongHalfwords ++
    Note.when (signedStore && !fields.kind.isHalfword) .signedByteStore ++
    Note.when (fields.mode.indexing == .post && fields.mode.writeBack) .halfwordWriteBackAfterPostIndexing ++
    operandNotes

theorem checkedPrinted_eq (fields : HalfwordTransfer) (offset : BitVec 8) :
    fields.checkedPrinted offset = some (fields.printed offset) := by
  have same : (offset.setWidth 32).toNat = offset.toNat := BitVec.toNat_setWidth_of_le (by decide)
  exact checkedPrintedOffset_eq (by rw [same]; exact Nat.lt_trans offset.isLt (by decide))

theorem checkedRender_eq (fields : HalfwordTransfer) :
    fields.checkedRender style condition = some (fields.render style condition) := by
  cases offset : fields.offset <;> simp [checkedRender, render, offset, checkedPrinted_eq]

theorem checkedNotes_eq (fields : HalfwordTransfer) :
    fields.checkedNotes condition = some (fields.notes condition) := by
  cases offset : fields.offset <;> simp [checkedNotes, notes, offset, checkedPrinted_eq]

end HalfwordTransfer

namespace BlockTransfer

variable {condition : Condition}

def checkedListed (fields : BlockTransfer) : List Index → Option (List Index)
  | [] => some []
  | number :: rest => do
    let listed ← Machine.checkedLists fields number
    let others ← fields.checkedListed rest
    return if listed then number :: others else others

def checkedRender (fields : BlockTransfer) (condition : Condition) : Option Layout := do
  let numbers ← fields.checkedListed ((List.range 16).map (BitVec.ofNat 64))
  return .columns (fields.transfer.blockMnemonic ++ condition.suffix ++ modeSuffix fields.mode)
    (fields.rn.name ++ (if fields.mode.writeBack then "!" else "") ++ ", \x7b" ++
      ", ".intercalate (numbers.map fun number => "r" ++ toString number.toNat) ++ "\x7d")

def checkedNotes (fields : BlockTransfer) (condition : Condition) : Option (List Note) := do
  let programCounter ←
    if fields.transfer = .store then Machine.checkedLists fields 15 else some false
  let ownBase ←
    if fields.transfer = .store ∧ fields.mode.writeBack then Machine.checkedLists fields (fields.rn.setWidth 64)
    else some false
  return Note.when fields.privileged .privilegedBlock ++
    Note.when (fields.rn == Reg.pc) .blockBaseIsProgramCounter ++
    Note.when programCounter .blockStoresProgramCounter ++
    Note.when ownBase .blockStoresOwnBase ++
    condition.notes ++
    Note.when (fields.list == 0) .emptyList

theorem checkedListed_eq {fields : BlockTransfer} (regs : List Reg) :
    fields.checkedListed (regs.map (·.setWidth 64)) = some ((regs.filter fields.lists).map (·.setWidth 64)) := by
  induction regs with
  | nil => rfl
  | cons reg rest ih =>
      cases listed : fields.lists reg <;> simp [checkedListed, Machine.checkedLists_eq, listed, ih]

theorem checkedRender_eq (fields : BlockTransfer) :
    fields.checkedRender condition = some (fields.render condition) := by
  have numbers : (List.range 16).map (BitVec.ofNat 64) =
      ((List.range 16).map (BitVec.ofNat 4)).map (·.setWidth 64) := by decide
  rw [checkedRender, numbers, checkedListed_eq]
  have named : Reg.name = fun reg => "r" ++ toString reg.toNat := rfl
  simp [render, registers, named, Function.comp_def, Machine.toNat_number]

theorem checkedNotes_eq (fields : BlockTransfer) : fields.checkedNotes condition = some (fields.notes condition) := by
  have programCounter : Machine.checkedLists fields 15#64 = some (fields.lists Reg.pc) :=
    Machine.checkedLists_eq fields Reg.pc
  have loads : (Transfer.load == Transfer.store) = false := rfl
  cases transfer : fields.transfer <;> cases writeBack : fields.mode.writeBack <;>
    simp [checkedNotes, notes, transfer, writeBack, loads, programCounter, Machine.checkedLists_eq]

end BlockTransfer

/-! ### Floating point -/

namespace Vfp.LoadStore

variable {style : ImmediateStyle} {condition : Condition}

def checkedPrinted (fields : LoadStore) (direction : Direction) : Option Word := do
  let bytes ← fields.checkedBytes
  checkedPrintedOffset direction fields.rn bytes

def checkedRenderOffset (fields : LoadStore) (direction : Direction) (style : ImmediateStyle) (condition : Condition) :
    Option Layout := do
  let offset ← fields.checkedPrinted direction
  return .columns (fields.mnemonic ++ fields.precision.suffix ++ condition.suffix)
    (fields.precision.register fields.fd.toNat ++ ", [" ++ fields.rn.name ++
      (if offset = 0 then "" else ", " ++ style.write offset) ++ "]")

/-- The last register of a list that has several. -/
def checkedLast (fields : LoadStore) (count : Index) : Option Index := do
  let before ← checkedSub count 1
  let distance ← checkedMul before (BitVec.ofNat 64 fields.precision.words)
  checkedAdd fields.firstIndex distance

def checkedRenderList (fields : LoadStore) : Option String := do
  let count : Index := BitVec.ofNat 64 fields.registerCount
  let first := fields.precision.register fields.firstIndex.toNat
  if count = 0 then return ""
  else if count = 1 then return first
  else
    let last ← fields.checkedLast count
    return first ++ "-" ++ fields.precision.register last.toNat

def checkedRenderMultiple (fields : LoadStore) (suffix : String) (writeBack : Bool) (condition : Condition) :
    Option Layout := do
  let list ← fields.checkedRenderList
  return .columns (fields.mnemonic ++ "m" ++ suffix ++ fields.precision.suffix ++ condition.suffix)
    (fields.rn.name ++ (if writeBack then "!" else "") ++ ", \x7b" ++ list ++ "\x7d")

def checkedRender (fields : LoadStore) (style : ImmediateStyle) (condition : Condition) : Option Layout :=
  match fields.mode with
  | .positiveOffset => fields.checkedRenderOffset .up style condition
  | .negativeOffset => fields.checkedRenderOffset .down style condition
  | .unindexed => fields.checkedRenderMultiple "ia" false condition
  | .increment => fields.checkedRenderMultiple "ia" true condition
  | .decrement => fields.checkedRenderMultiple "db" true condition
  | .undefined _ => some (.plain undefinedText)

def checkedMultipleNotes (fields : LoadStore) (writeBack : Bool) (condition : Condition) : Option (List Note) := do
  let past ← checkedAdd fields.firstIndex (fields.offset.setWidth 64)
  return Note.when (writeBack && fields.rn == Reg.pc) .writeBackToProgramCounter ++ condition.notes ++
    Note.when (32 < past.toNat) .listPastLastSlot ++
    Note.when (fields.registerCount == 0) .emptyList

def checkedNotes (fields : LoadStore) (condition : Condition) : Option (List Note) :=
  match fields.mode with
  | .positiveOffset | .negativeOffset => some condition.notes
  | .unindexed => fields.checkedMultipleNotes false condition
  | .increment | .decrement => fields.checkedMultipleNotes true condition
  | .undefined _ => some [.undefinedVfpAddressing]

theorem checkedPrinted_eq (fields : LoadStore) (direction : Direction) :
    fields.checkedPrinted direction = some (fields.printed direction) := by
  have small : (fields.offset.setWidth 32 * 4 : Word).toNat < 4096 := by
    rw [BitVec.toNat_mul_of_lt (Nat.lt_trans fields.bytes_fit (by decide))]
    exact fields.bytes_fit
  rw [checkedPrinted, checkedBytes_eq]
  exact checkedPrintedOffset_eq small

theorem firstSlot_lt (fields : LoadStore) : fields.firstSlot < 32 := (fields.fd.aligned fields.precision).isLt

theorem firstIndex_eq_ofNat (fields : LoadStore) : fields.firstIndex = BitVec.ofNat 64 fields.firstSlot := by
  rw [firstIndex_eq, firstSlot, BitVec.ofNat_toNat, Slot.index]

theorem toNat_firstIndex (fields : LoadStore) : fields.firstIndex.toNat = fields.firstSlot := by
  rw [firstIndex_eq]
  exact BitVec.toNat_setWidth_of_le (by decide)

theorem registerCount_lt (fields : LoadStore) : fields.registerCount < 256 :=
  Nat.lt_of_le_of_lt (Nat.div_le_self _ _) fields.offset.isLt

theorem lastSlot_lt {fields : LoadStore} {more : Nat} (several : fields.registerCount = more + 2) :
    fields.firstSlot + (more + 1) * fields.precision.words < 1024 := by
  have below := fields.firstSlot_lt
  have few := fields.registerCount_lt
  have words : fields.precision.words ≤ 2 := by cases fields.precision <;> decide
  have far : (more + 1) * fields.precision.words ≤ 255 * 2 := Nat.mul_le_mul (by omega) words
  omega

theorem checkedLast_eq {fields : LoadStore} {more : Nat} (several : fields.registerCount = more + 2) :
    fields.checkedLast (BitVec.ofNat 64 (more + 2)) =
      some (BitVec.ofNat 64 (fields.firstSlot + (more + 1) * fields.precision.words)) := by
  have few := fields.registerCount_lt
  have far := lastSlot_lt several
  have before : checkedSub (BitVec.ofNat 64 (more + 2)) 1 = some (BitVec.ofNat 64 (more + 1)) :=
    @Bits.checkedSub_ofNat 64 (more + 2) 1 (by omega) (by omega)
  have distance : checkedMul (BitVec.ofNat 64 (more + 1)) (BitVec.ofNat 64 fields.precision.words) =
      some (BitVec.ofNat 64 ((more + 1) * fields.precision.words)) := Bits.checkedMul_ofNat (by omega)
  simp only [checkedLast, before, distance, firstIndex_eq_ofNat, Option.bind_eq_bind, Option.bind_some]
  exact Bits.checkedAdd_ofNat (by omega)

theorem checkedRenderList_eq (fields : LoadStore) : fields.checkedRenderList = some fields.renderList := by
  have few := fields.registerCount_lt
  match registers : fields.registerCount with
  | 0 => simp [checkedRenderList, renderList, registers]
  | 1 => simp [checkedRenderList, renderList, registers, toNat_firstIndex]
  | more + 2 =>
    have count : (BitVec.ofNat 64 (more + 2)).toNat = more + 2 := Nat.mod_eq_of_lt (by omega)
    have notZero : BitVec.ofNat 64 (more + 2) ≠ 0 := by
      rw [ne_eq, ← BitVec.toNat_inj, count]
      exact Nat.succ_ne_zero _
    have notOne : BitVec.ofNat 64 (more + 2) ≠ 1 := by
      rw [ne_eq, ← BitVec.toNat_inj, count]
      exact fun one => Nat.succ_ne_zero more (Nat.succ.inj one)
    have far := lastSlot_lt registers
    have last : (BitVec.ofNat 64 (fields.firstSlot + (more + 1) * fields.precision.words)).toNat =
        fields.firstSlot + (more + 1) * fields.precision.words := Nat.mod_eq_of_lt (by omega)
    simp only [checkedRenderList, renderList, registers, if_neg notZero, if_neg notOne, checkedLast_eq registers, last,
      toNat_firstIndex, Option.bind_eq_bind, Option.bind_some, Option.pure_def]
    rfl

theorem checkedRender_eq (fields : LoadStore) :
    fields.checkedRender style condition = some (fields.render style condition) := by
  cases mode : fields.mode <;>
    simp [checkedRender, render, mode, checkedRenderOffset, renderOffset, checkedRenderMultiple, renderMultiple,
      checkedPrinted_eq, checkedRenderList_eq]

theorem checkedNotes_eq (fields : LoadStore) : fields.checkedNotes condition = some (fields.notes condition) := by
  have below := fields.firstSlot_lt
  have small : fields.offset.toNat < 256 := fields.offset.isLt
  have sum : checkedAdd fields.firstIndex (fields.offset.setWidth 64) =
      some (BitVec.ofNat 64 (fields.firstSlot + fields.offset.toNat)) := by
    rw [firstIndex_eq_ofNat, ← BitVec.ofNat_toNat]
    exact Bits.checkedAdd_ofNat (by omega)
  have total : (BitVec.ofNat 64 (fields.firstSlot + fields.offset.toNat)).toNat =
      fields.firstSlot + fields.offset.toNat := Nat.mod_eq_of_lt (by omega)
  cases mode : fields.mode <;> simp only [checkedNotes, notes, mode, checkedMultipleNotes, multipleNotes, sum, total,
    Option.bind_eq_bind, Option.bind_some, Option.pure_def]

end Vfp.LoadStore

/-! ### Any instruction -/

namespace Instruction

variable {style : ImmediateStyle} {condition : Condition}

def checkedRender (style : ImmediateStyle) (condition : Condition) : Instruction → Option Layout
  | dataProcessing fields => fields.checkedRender style condition
  | psrTransfer _ op => op.checkedRender style condition
  | halfwordTransfer fields => fields.checkedRender style condition
  | singleTransfer fields => fields.checkedRender style condition
  | blockTransfer fields => fields.checkedRender condition
  | vfp (.loadStore fields) => fields.checkedRender style condition
  | instruction => some (instruction.render style condition)

def checkedNotes (condition : Condition) : Instruction → Option (List Note)
  | halfwordTransfer fields => fields.checkedNotes condition
  | singleTransfer fields => fields.checkedNotes condition
  | blockTransfer fields => fields.checkedNotes condition
  | vfp (.loadStore fields) => fields.checkedNotes condition
  | instruction => some (instruction.notes condition)

theorem checkedRender_eq (instruction : Instruction) :
    instruction.checkedRender style condition = some (instruction.render style condition) := by
  cases instruction with
  | dataProcessing fields => exact fields.checkedRender_eq
  | psrTransfer saved op => exact op.checkedRender_eq
  | halfwordTransfer fields => exact fields.checkedRender_eq
  | singleTransfer fields => exact fields.checkedRender_eq
  | blockTransfer fields => exact fields.checkedRender_eq
  | vfp instruction =>
      cases instruction with
      | loadStore fields => exact fields.checkedRender_eq
      | dataProcessing fields | registerTransfer fields => rfl
  | multiply fields | multiplyLong fields | swap fields => rfl
  | countLeadingZeros rd rm => rfl
  | branch link offset => rfl
  | undefined | coprocessor => rfl

theorem checkedNotes_eq (instruction : Instruction) :
    instruction.checkedNotes condition = some (instruction.notes condition) := by
  cases instruction with
  | halfwordTransfer fields => exact fields.checkedNotes_eq
  | singleTransfer fields => exact fields.checkedNotes_eq
  | blockTransfer fields => exact fields.checkedNotes_eq
  | vfp instruction =>
      cases instruction with
      | loadStore fields => exact fields.checkedNotes_eq
      | dataProcessing fields | registerTransfer fields => rfl
  | dataProcessing fields | multiply fields | multiplyLong fields | swap fields => rfl
  | psrTransfer saved op => rfl
  | countLeadingZeros rd rm => rfl
  | branch link offset => rfl
  | undefined | coprocessor => rfl

end Instruction

def checkedDisassemble (settings : ListingSettings) (word : Word) : Option Disassembly := do
  let instruction ← Instruction.checkedDecode word
  let condition ← Condition.checkedOfWord word
  let layout ← instruction.checkedRender settings.style condition
  let notes ← instruction.checkedNotes condition
  return { layout, notes, classOf := instruction.classOf }

theorem checkedDisassemble_eq (settings : ListingSettings) (word : Word) :
    checkedDisassemble settings word = some (disassemble settings word) := by
  simp [checkedDisassemble, disassemble, Instruction.checkedDecode_eq, Condition.checkedOfWord_eq,
    Instruction.checkedRender_eq, Instruction.checkedNotes_eq]

end Arm32
