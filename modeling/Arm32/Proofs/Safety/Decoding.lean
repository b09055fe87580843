import Arm32.Condition
import Arm32.Instruction.Decode
import Arm32.Proofs.Safety.Checks

/-! Decoding with checks. Which class a word belongs to is settled by masks, and the rest is read field by field. No
field lies outside the word, and none holds more than the number of a register, a slot or a place that it stands for. -/

namespace Arm32

open Bits (checkedField)

variable {word : Word}

def Condition.checkedOfWord (word : Word) : Option Condition := do
  let code ← checkedField word 28 4
  return Condition.ofCode code

theorem Condition.checkedOfWord_eq : checkedOfWord word = some (Condition.ofWord word) := by
  simp (disch := decide) [checkedOfWord, ofWord, Bits.checkedField_eq]

/-! ### Operands -/

def ShiftAmount.checkedOfWord (word : Word) : Option ShiftAmount := do
  if ← Bits.bit? word 4 then
    let rs ← checkedField word 8 4
    let reserved ← Bits.bit? word 7
    return .register rs reserved
  else
    let places ← checkedField word 7 5
    return .immediate places

def ShiftedRegister.checkedOfWord (word : Word) : Option ShiftedRegister := do
  let amount ← ShiftAmount.checkedOfWord word
  let rm ← checkedField word 0 4
  let kind ← checkedField word 5 2
  return { rm, kind := ShiftKind.ofCode kind, amount }

theorem ShiftedRegister.checkedOfWord_eq : checkedOfWord word = some (ofWord word) := by
  cases byRegister : word[4] <;>
    simp (disch := decide) [checkedOfWord, ShiftAmount.checkedOfWord, ofWord, Bits.checkedField_eq,
      Bits.bit?_eq, byRegister]

def Operand2.checkedOfWord (word : Word) : Option Operand2 := do
  if ← Bits.bit? word 25 then
    let base ← checkedField word 0 8
    let rotate ← checkedField word 8 4
    return .immediate base rotate
  else
    let operand ← ShiftedRegister.checkedOfWord word
    return .register operand

theorem Operand2.checkedOfWord_eq : checkedOfWord word = some (ofWord word) := by
  cases immediate : word[25] <;>
    simp (disch := decide) [checkedOfWord, ofWord, Bits.checkedField_eq, Bits.bit?_eq,
      ShiftedRegister.checkedOfWord_eq, immediate]

def TransferOffset.checkedOfWord (word : Word) : Option TransferOffset := do
  if ← Bits.bit? word 25 then
    let operand ← ShiftedRegister.checkedOfWord word
    return .register operand
  else
    let offset ← checkedField word 0 12
    return .immediate offset

theorem TransferOffset.checkedOfWord_eq : checkedOfWord word = some (ofWord word) := by
  cases register : word[25] <;>
    simp (disch := decide) [checkedOfWord, ofWord, Bits.checkedField_eq, Bits.bit?_eq,
      ShiftedRegister.checkedOfWord_eq, register]

/-- The two halves of an immediate are put together in a whole word. -/
def HalfwordOffset.checkedOfWord (word : Word) : Option HalfwordOffset := do
  if ← Bits.bit? word 22 then
    let high ← Bits.field? word 8 11
    let low ← Bits.field? word 0 3
    let shifted ← Bits.checkedShiftLeft high 4
    let offset ← Bits.narrow? 8 (shifted ||| low)
    return .immediate offset
  else
    let rm ← checkedField word 0 4
    return .register rm

theorem narrow?_halves (high low : BitVec 4) :
    Bits.narrow? 8 (high.setWidth 32 <<< 4 ||| low.setWidth 32) = some (high ++ low) := by
  revert high low
  decide

theorem HalfwordOffset.checkedOfWord_eq : checkedOfWord word = some (ofWord word) := by
  cases immediate : word[22] with
  | false => simp (disch := decide) [checkedOfWord, ofWord, Bits.checkedField_eq, Bits.bit?_eq, immediate]
  | true =>
      have high : Bits.field? word 8 11 = some ((word.extractLsb' 8 4).setWidth 32) :=
        Bits.field?_eq 4 rfl (by decide)
      have low : Bits.field? word 0 3 = some ((word.extractLsb' 0 4).setWidth 32) :=
        Bits.field?_eq 4 rfl (by decide)
      simp (disch := decide) [checkedOfWord, ofWord, Bits.bit?_eq, immediate, high, low,
        Bits.checkedShiftLeft_eq, narrow?_halves]

/-- Masks settle the form of a status transfer. -/
def PsrOp.checkedOfWord (word : Word) : Option PsrOp :=
  match ofWord word with
  | read _ => do
    let rd ← checkedField word 12 4
    return read rd
  | write _ => do
    let rm ← checkedField word 0 4
    return write rm
  | writeFlags _ => do
    if ← Bits.bit? word 25 then
      let field ← checkedField word 0 12
      return writeFlags (.immediate field)
    else
      let rm ← checkedField word 0 4
      return writeFlags (.register rm)
  | undefined => some undefined

theorem PsrOp.checkedOfWord_eq : checkedOfWord word = some (ofWord word) := by
  unfold checkedOfWord ofWord
  by_cases read : word.extractLsb' 23 5 = 0b00010 ∧ word.extractLsb' 16 6 = 0b001111 ∧ word.extractLsb' 0 12 = 0
  · simp (disch := decide) only [if_pos read, Bits.checkedField_eq]
    rfl
  by_cases write : word.extractLsb' 23 5 = 0b00010 ∧ word.extractLsb' 4 18 = 0b101001111100000000
  · simp (disch := decide) only [if_neg read, if_pos write, Bits.checkedField_eq]
    rfl
  by_cases flags : word.extractLsb' 26 2 = 0b00 ∧ word.extractLsb' 23 2 = 0b10 ∧ word.extractLsb' 12 10 = 0b1010001111
  · simp (disch := decide) only [if_neg read, if_neg write, if_pos flags, Bits.checkedField_eq, Bits.bit?_eq]
    cases immediate : word.getLsbD 25 <;> rfl
  · simp only [if_neg read, if_neg write, if_neg flags]

/-! ### Floating-point instructions -/

namespace Vfp

/-- A register field and its lowest bit, which lies elsewhere in the word. -/
def checkedSlot (word : Word) (first lowest : Nat) : Option Slot := do
  let high ← Bits.field? word first (first + 3)
  let low ← Bits.field? word lowest lowest
  let shifted ← Bits.checkedShiftLeft high 1
  Bits.narrow? 5 (shifted ||| low)

theorem narrow?_slot (high : BitVec 4) (low : BitVec 1) :
    Bits.narrow? 5 (high.setWidth 32 <<< 1 ||| low.setWidth 32) = some (high ++ low) := by
  revert high low
  decide

theorem checkedSlot_eq {first lowest : Nat} (inside : first + 4 ≤ 32) (lowestInside : lowest + 1 ≤ 32) :
    checkedSlot word first lowest = some (word.extractLsb' first 4 ++ word.extractLsb' lowest 1) := by
  have high : Bits.field? word first (first + 3) = some ((word.extractLsb' first 4).setWidth 32) :=
    Bits.field?_eq 4 rfl inside
  have low : Bits.field? word lowest lowest = some ((word.extractLsb' lowest 1).setWidth 32) :=
    Bits.field?_eq 1 rfl lowestInside
  simp (disch := decide) [checkedSlot, high, low, Bits.checkedShiftLeft_eq, narrow?_slot]

/-- The four scattered opcode bits, each moved to its place. -/
def checkedOpcode (word : Word) : Option (BitVec 4) := do
  let p ← Bits.checkedShiftLeft (← Bits.field? word 23 23) 3
  let q ← Bits.checkedShiftLeft (← Bits.field? word 21 21) 2
  let r ← Bits.checkedShiftLeft (← Bits.field? word 20 20) 1
  let s ← Bits.field? word 6 6
  Bits.narrow? 4 (p ||| q ||| r ||| s)

theorem narrow?_bits (p q r s : BitVec 1) :
    Bits.narrow? 4 (p.setWidth 32 <<< 3 ||| q.setWidth 32 <<< 2 ||| r.setWidth 32 <<< 1 ||| s.setWidth 32) =
      some (p ++ (q ++ r) ++ s) := by
  revert p q r s
  decide

theorem field?_bit {place : Nat} (inside : place + 1 ≤ 32) :
    Bits.field? word place place = some ((word.extractLsb' place 1).setWidth 32) :=
  Bits.field?_eq 1 rfl inside

theorem extractLsb'_two (first : Nat) :
    word.extractLsb' first 2 = word.extractLsb' (first + 1) 1 ++ word.extractLsb' first 1 :=
  (@BitVec.extractLsb'_append_extractLsb'_eq_extractLsb' 32 (first + 1) first 1 1 word rfl).symm

theorem checkedOpcode_eq : checkedOpcode word = some (opcodeField word) := by
  simp (disch := decide) [checkedOpcode, field?_bit, Bits.checkedShiftLeft_eq, narrow?_bits, opcodeField,
    extractLsb'_two]

def Precision.checkedOfWord? (word : Word) : Option (Option Precision) := do
  let number ← checkedField word 8 4
  return ofCoprocessor? number

def AddressMode.checkedOfWord (word : Word) : Option AddressMode := do
  let p ← Bits.checkedShiftLeft (← Bits.field? word 24 24) 2
  let u ← Bits.checkedShiftLeft (← Bits.field? word 23 23) 1
  let w ← Bits.field? word 21 21
  let mode ← Bits.narrow? 3 (p ||| u ||| w)
  return ofBits mode

theorem narrow?_mode (p u w : BitVec 1) :
    Bits.narrow? 3 (p.setWidth 32 <<< 2 ||| u.setWidth 32 <<< 1 ||| w.setWidth 32) = some (p ++ u ++ w) := by
  revert p u w
  decide

theorem AddressMode.checkedOfWord_eq : checkedOfWord word = some (ofWord word) := by
  simp (disch := decide) [checkedOfWord, ofWord, field?_bit, Bits.checkedShiftLeft_eq, narrow?_mode,
    extractLsb'_two]

/-- No instruction for the words of other coprocessors. -/
def Instruction.checkedDecode? (word : Word) : Option (Option Instruction) := do
  match ← Precision.checkedOfWord? word with
  | none => return none
  | some precision =>
    if word.extractLsb' 24 4 = 0b1110 ∧ word.extractLsb' 4 3 = 0b001 then
      let opcode ← checkedField word 20 4
      let fn ← checkedSlot word 16 7
      let rd ← checkedField word 12 4
      return some (.registerTransfer { precision, op := TransferOp.ofOpcode precision opcode, fn, rd })
    else if word.extractLsb' 24 4 = 0b1110 ∧ !word.getLsbD 4 then
      let opcode ← checkedOpcode word
      let fd ← checkedSlot word 12 22
      let fn ← checkedSlot word 16 7
      let fm ← checkedSlot word 0 5
      return some (.dataProcessing { precision, op := DataOp.ofOpcode opcode fn, fd, fn, fm })
    else if word.extractLsb' 25 3 = 0b110 then
      let mode ← AddressMode.checkedOfWord word
      let load ← Bits.bit? word 20
      let rn ← checkedField word 16 4
      let fd ← checkedSlot word 12 22
      let offset ← checkedField word 0 8
      return some (.loadStore { precision, mode, transfer := Transfer.ofBit load, rn, fd, offset })
    else return none

theorem Instruction.checkedDecode?_eq : checkedDecode? word = some (decode? word) := by
  unfold checkedDecode? decode?
  cases precision : Precision.ofCoprocessor? (word.extractLsb' 8 4) with
  | none =>
      simp (disch := decide) [Precision.checkedOfWord?, Bits.checkedField_eq, precision]
  | some precision' =>
      simp (disch := decide) [Precision.checkedOfWord?, Bits.checkedField_eq, Bits.bit?_eq, checkedSlot_eq,
        checkedOpcode_eq, AddressMode.checkedOfWord_eq, precision, destinationField, firstField, secondField,
        apply_ite some]

end Vfp

/-! ### Core instructions -/

namespace Instruction

def checkedAddressingOf (word : Word) : Option Addressing := do
  let pre ← Bits.bit? word 24
  let up ← Bits.bit? word 23
  let writeBack ← Bits.bit? word 21
  return { indexing := Indexing.ofBit pre, direction := Direction.ofBit up, writeBack }

def checkedDataProcessingOf (word : Word) : Option DataProcessing := do
  let op ← checkedField word 21 4
  let setFlags ← Bits.bit? word 20
  let rn ← checkedField word 16 4
  let rd ← checkedField word 12 4
  let operand ← Operand2.checkedOfWord word
  return { op := AluOp.ofCode op, setFlags, rn, rd, operand }

def checkedMultiplyOf (word : Word) : Option Multiply := do
  let accumulate ← Bits.bit? word 21
  let setFlags ← Bits.bit? word 20
  let rd ← checkedField word 16 4
  let rn ← checkedField word 12 4
  let rs ← checkedField word 8 4
  let rm ← checkedField word 0 4
  return { op := if accumulate then .mla else .mul, setFlags, rd, rn, rs, rm }

def checkedMultiplyLongOf (word : Word) : Option MultiplyLong := do
  let signed ← Bits.bit? word 22
  let accumulate ← Bits.bit? word 21
  let op : MultiplyLongOp :=
    match signed, accumulate with
    | false, false => .umull
    | false, true => .umlal
    | true, false => .smull
    | true, true => .smlal
  let setFlags ← Bits.bit? word 20
  let rdHigh ← checkedField word 16 4
  let rdLow ← checkedField word 12 4
  let rs ← checkedField word 8 4
  let rm ← checkedField word 0 4
  return { op, setFlags, rdHigh, rdLow, rs, rm }

def checkedSwapOf (word : Word) : Option Swap := do
  let byte ← Bits.bit? word 22
  let rn ← checkedField word 16 4
  let rd ← checkedField word 12 4
  let rm ← checkedField word 0 4
  return { quantity := Quantity.ofBit byte, rn, rd, rm }

def checkedHalfwordKindOf (word : Word) : Option HalfwordKind := do
  match ← Bits.bit? word 6, ← Bits.bit? word 5 with
  | false, false => return .swap
  | false, true => return .unsignedHalfword
  | true, false => return .signedByte
  | true, true => return .signedHalfword

def checkedHalfwordTransferOf (word : Word) : Option HalfwordTransfer := do
  let offset ← HalfwordOffset.checkedOfWord word
  let mode ← checkedAddressingOf word
  let load ← Bits.bit? word 20
  let kind ← checkedHalfwordKindOf word
  let rn ← checkedField word 16 4
  let rd ← checkedField word 12 4
  return { mode, transfer := Transfer.ofBit load, kind, rn, rd, offset }

def checkedSingleTransferOf (word : Word) : Option SingleTransfer := do
  let offset ← TransferOffset.checkedOfWord word
  let mode ← checkedAddressingOf word
  let byte ← Bits.bit? word 22
  let load ← Bits.bit? word 20
  let rn ← checkedField word 16 4
  let rd ← checkedField word 12 4
  return { mode, quantity := Quantity.ofBit byte, transfer := Transfer.ofBit load, rn, rd, offset }

def checkedBlockTransferOf (word : Word) : Option BlockTransfer := do
  let mode ← checkedAddressingOf word
  let privileged ← Bits.bit? word 22
  let load ← Bits.bit? word 20
  let rn ← checkedField word 16 4
  let list ← checkedField word 0 16
  return { mode, privileged, transfer := Transfer.ofBit load, rn, list }

/-- The word offset is turned into bytes before its sign is extended. -/
def checkedBranchBytes (word : Word) : Option Word := do
  let field ← Bits.field? word 0 23
  let bytes ← Bits.checkedShiftLeft field 2
  Bits.signExtended? bytes 26

theorem checkedBranchBytes_eq : checkedBranchBytes word = some (branchBytes word) := by
  have field : Bits.field? word 0 23 = some ((word.extractLsb' 0 24).setWidth 32) :=
    Bits.field?_eq 24 rfl (by decide)
  have bytes : (word.extractLsb' 0 24).setWidth 26 <<< 2 = word.extractLsb' 0 24 ++ 0#2 := by
    have small : (word.extractLsb' 0 24).toNat < 16777216 := (word.extractLsb' 0 24).isLt
    apply BitVec.eq_of_toNat_eq
    rw [BitVec.toNat_append, BitVec.toNat_shiftLeft, BitVec.toNat_setWidth]
    simp
    omega
  simp (disch := decide) [checkedBranchBytes, field, Bits.checkedShiftLeft_eq, Bits.signExtended?, branchBytes, bytes]

theorem checkedAddressingOf_eq : checkedAddressingOf word = some (addressingOf word) := by
  simp (disch := decide) [checkedAddressingOf, addressingOf, Bits.bit?_eq]

theorem checkedDataProcessingOf_eq : checkedDataProcessingOf word = some (dataProcessingOf word) := by
  simp (disch := decide) [checkedDataProcessingOf, dataProcessingOf, Bits.checkedField_eq, Bits.bit?_eq,
    Operand2.checkedOfWord_eq]

theorem checkedMultiplyOf_eq : checkedMultiplyOf word = some (multiplyOf word) := by
  simp (disch := decide) [checkedMultiplyOf, multiplyOf, MultiplyOp.ofWord, Bits.checkedField_eq, Bits.bit?_eq]

theorem checkedMultiplyLongOf_eq : checkedMultiplyLongOf word = some (multiplyLongOf word) := by
  cases signed : word[22] <;> cases accumulate : word[21] <;>
    simp (disch := decide) [checkedMultiplyLongOf, multiplyLongOf, MultiplyLongOp.ofWord, Bits.checkedField_eq,
      Bits.bit?_eq, signed, accumulate]

theorem checkedSwapOf_eq : checkedSwapOf word = some (swapOf word) := by
  simp (disch := decide) [checkedSwapOf, swapOf, Bits.checkedField_eq, Bits.bit?_eq]

theorem checkedHalfwordKindOf_eq : checkedHalfwordKindOf word = some (HalfwordKind.ofWord word) := by
  cases signed : word[6] <;> cases halfword : word[5] <;>
    simp (disch := decide) [checkedHalfwordKindOf, HalfwordKind.ofWord, Bits.bit?_eq, signed, halfword]

theorem checkedHalfwordTransferOf_eq : checkedHalfwordTransferOf word = some (halfwordTransferOf word) := by
  simp (disch := decide) [checkedHalfwordTransferOf, halfwordTransferOf, Bits.checkedField_eq, Bits.bit?_eq,
    HalfwordOffset.checkedOfWord_eq, checkedAddressingOf_eq, checkedHalfwordKindOf_eq]

theorem checkedSingleTransferOf_eq : checkedSingleTransferOf word = some (singleTransferOf word) := by
  simp (disch := decide) [checkedSingleTransferOf, singleTransferOf, Bits.checkedField_eq, Bits.bit?_eq,
    TransferOffset.checkedOfWord_eq, checkedAddressingOf_eq]

theorem checkedBlockTransferOf_eq : checkedBlockTransferOf word = some (blockTransferOf word) := by
  simp (disch := decide) [checkedBlockTransferOf, blockTransferOf, Bits.checkedField_eq, Bits.bit?_eq,
    checkedAddressingOf_eq]

def checkedDecodeArithmetic (word : Word) : Option Instruction := do
  if isMultiply word then return .multiply (← checkedMultiplyOf word)
  else if isMultiplyLong word then return .multiplyLong (← checkedMultiplyLongOf word)
  else if isCountLeadingZeros word then
    return .countLeadingZeros (← checkedField word 12 4) (← checkedField word 0 4)
  else if isSwap word then return .swap (← checkedSwapOf word)
  else if isHalfwordTransfer word then return .halfwordTransfer (← checkedHalfwordTransferOf word)
  else if isPsrTransfer word then return .psrTransfer (← Bits.bit? word 22) (← PsrOp.checkedOfWord word)
  else return .dataProcessing (← checkedDataProcessingOf word)

def checkedDecodeSingleTransfer (word : Word) : Option Instruction := do
  if word.getLsbD 25 && word.getLsbD 4 then return .undefined
  else return .singleTransfer (← checkedSingleTransferOf word)

def checkedDecodeBlockOrBranch (word : Word) : Option Instruction := do
  if ← Bits.bit? word 25 then return .branch (← Bits.bit? word 24) (← checkedBranchBytes word)
  else return .blockTransfer (← checkedBlockTransferOf word)

def checkedDecodeCoprocessor (word : Word) : Option Instruction := do
  match ← Vfp.Instruction.checkedDecode? word with
  | some instruction => return .vfp instruction
  | none => return .coprocessor

def checkedDecode (word : Word) : Option Instruction := do
  let group ← checkedField word 26 2
  match group.toNat with
  | 0 => checkedDecodeArithmetic word
  | 1 => checkedDecodeSingleTransfer word
  | 2 => checkedDecodeBlockOrBranch word
  | _ => checkedDecodeCoprocessor word

theorem checkedDecodeArithmetic_eq : checkedDecodeArithmetic word = some (decodeArithmetic word) := by
  simp (disch := decide) [checkedDecodeArithmetic, decodeArithmetic, Bits.checkedField_eq, Bits.bit?_eq,
    checkedMultiplyOf_eq, checkedMultiplyLongOf_eq, checkedSwapOf_eq, checkedHalfwordTransferOf_eq,
    PsrOp.checkedOfWord_eq, checkedDataProcessingOf_eq, apply_ite some]

theorem checkedDecodeSingleTransfer_eq : checkedDecodeSingleTransfer word = some (decodeSingleTransfer word) := by
  simp [checkedDecodeSingleTransfer, decodeSingleTransfer, checkedSingleTransferOf_eq, apply_ite some]

theorem checkedDecodeBlockOrBranch_eq : checkedDecodeBlockOrBranch word = some (decodeBlockOrBranch word) := by
  simp (disch := decide) [checkedDecodeBlockOrBranch, decodeBlockOrBranch, Bits.bit?_eq, checkedBranchBytes_eq,
    checkedBlockTransferOf_eq, apply_ite some]

theorem checkedDecodeCoprocessor_eq : checkedDecodeCoprocessor word = some (decodeCoprocessor word) := by
  rw [checkedDecodeCoprocessor, Vfp.Instruction.checkedDecode?_eq, decodeCoprocessor]
  cases Vfp.Instruction.decode? word <;> rfl

/-- Decoding never breaks down, whatever the word. -/
theorem checkedDecode_eq : checkedDecode word = some (decode word) := by
  have group : checkedField word 26 2 = some (word.extractLsb' 26 2) :=
    Bits.checkedField_eq (by decide) (by decide)
  rw [checkedDecode, group, Option.bind_eq_bind, Option.bind_some, decode]
  simp only [checkedDecodeArithmetic_eq, checkedDecodeSingleTransfer_eq, checkedDecodeBlockOrBranch_eq,
    checkedDecodeCoprocessor_eq]
  generalize (word.extractLsb' 26 2).toNat = number
  obtain _ | _ | _ | number := number <;> rfl

end Instruction

end Arm32
