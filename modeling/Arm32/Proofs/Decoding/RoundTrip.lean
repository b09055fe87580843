import Arm32.Proofs.Decoding.Encoder
import Arm32.Proofs.Decoding.Reading

/-! A word is put together again from what the decoder has read of it. Each class has its own layout: the fields and the
marks that the class is known by follow each other without a gap, so they merge into the word. -/

namespace Arm32

open Bits (AgreeOutside ofBool_getLsbD)

variable {word : Word}

namespace Instruction

theorem body_dataProcessingOf (group : word.extractLsb' 26 2 = 0b00#2) :
    (dataProcessingOf word).body = word.extractLsb' 0 28 := by
  have operand := Operand2.code_ofWord word
  simp (disch := rfl) only [DataProcessing.body, dataProcessingOf, operand, AluOp.code_ofCode, ofBool_getLsbD, ← group,
    BitVec.extractLsb'_append_extractLsb'_eq_extractLsb']

theorem body_multiplyOf (shape : isMultiply word = true) : (multiplyOf word).body = word.extractLsb' 0 28 := by
  obtain ⟨top, mark⟩ : word.extractLsb' 22 6 = 0b000000#6 ∧ word.extractLsb' 4 4 = 0b1001#4 := by
    simpa [isMultiply] using shape
  simp (disch := rfl) only [Multiply.body, multiplyOf, MultiplyOp.bit_ofWord, ofBool_getLsbD, ← top, ← mark,
    BitVec.extractLsb'_append_extractLsb'_eq_extractLsb']

theorem body_multiplyLongOf (shape : isMultiplyLong word = true) :
    (multiplyLongOf word).body = word.extractLsb' 0 28 := by
  obtain ⟨top, mark⟩ : word.extractLsb' 23 5 = 0b00001#5 ∧ word.extractLsb' 4 4 = 0b1001#4 := by
    simpa [isMultiplyLong] using shape
  simp (disch := rfl) only [MultiplyLong.body, multiplyLongOf, MultiplyLongOp.bits_ofWord, ofBool_getLsbD, ← top, ← mark,
    BitVec.extractLsb'_append_extractLsb'_eq_extractLsb']

theorem body_swapOf (shape : isSwap word = true) : (swapOf word).body = word.extractLsb' 0 28 := by
  obtain ⟨⟨top, middle⟩, mark⟩ : (word.extractLsb' 23 5 = 0b00010#5 ∧ word.extractLsb' 20 2 = 0b00#2) ∧
      word.extractLsb' 4 8 = 0b00001001#8 := by
    simpa [isSwap] using shape
  simp (disch := rfl) only [Swap.body, swapOf, Quantity.bit_ofBit, ofBool_getLsbD, ← top, ← middle, ← mark,
    BitVec.extractLsb'_append_extractLsb'_eq_extractLsb']

theorem body_singleTransferOf (group : word.extractLsb' 26 2 = 0b01#2) :
    (singleTransferOf word).body = word.extractLsb' 0 28 := by
  have offset := TransferOffset.code_ofWord word
  simp (disch := rfl) only [SingleTransfer.body, singleTransferOf, addressingOf, offset, Indexing.bit_ofBit,
    Direction.bit_ofBit, Quantity.bit_ofBit, Transfer.bit_ofBit, ofBool_getLsbD, ← group,
    BitVec.extractLsb'_append_extractLsb'_eq_extractLsb']

theorem body_blockTransferOf (group : word.extractLsb' 26 2 = 0b10#2) (form : word.getLsbD 25 = false) :
    (blockTransferOf word).body = word.extractLsb' 0 28 := by
  have field : word.extractLsb' 25 1 = 0#1 := (ofBool_getLsbD word 25).symm.trans (congrArg BitVec.ofBool form)
  simp (disch := rfl) only [BlockTransfer.body, blockTransferOf, addressingOf, Indexing.bit_ofBit,
    Direction.bit_ofBit, Transfer.bit_ofBit, ofBool_getLsbD, ← group, ← field,
    BitVec.extractLsb'_append_extractLsb'_eq_extractLsb']

theorem extractLsb'_branchBytes (word : Word) : (branchBytes word).extractLsb' 2 24 = word.extractLsb' 0 24 := by
  apply BitVec.eq_of_getLsbD_eq
  intro index below
  have inside : 2 + index < 24 + 2 := by omega
  have above : ¬ 2 + index < 2 := by omega
  rw [BitVec.getLsbD_extractLsb', branchBytes, BitVec.getLsbD_signExtend, BitVec.getLsbD_append, if_pos inside,
    if_neg above, Nat.add_sub_cancel_left]
  simp [below, show 2 + index < 32 by omega]

theorem body_branch (group : word.extractLsb' 26 2 = 0b10#2) (form : word.getLsbD 25 = true) :
    (branch (word.getLsbD 24) (branchBytes word)).body = word.extractLsb' 0 28 := by
  have field : word.extractLsb' 25 1 = 1#1 := (ofBool_getLsbD word 25).symm.trans (congrArg BitVec.ofBool form)
  simp (disch := rfl) only [body, extractLsb'_branchBytes, ofBool_getLsbD, ← group, ← field,
    BitVec.extractLsb'_append_extractLsb'_eq_extractLsb']

theorem body_psr_read (top : word.extractLsb' 23 5 = 0b00010#5) (middle : word.extractLsb' 16 6 = 0b001111#6)
    (bottom : word.extractLsb' 0 12 = 0#12) :
    PsrOp.body (word.getLsbD 22) (.read (word.extractLsb' 12 4)) = word.extractLsb' 0 28 := by
  simp (disch := rfl) only [PsrOp.body, ofBool_getLsbD, ← top, ← middle, ← bottom,
    BitVec.extractLsb'_append_extractLsb'_eq_extractLsb']

theorem body_psr_write (top : word.extractLsb' 23 5 = 0b00010#5)
    (middle : word.extractLsb' 4 18 = 0b101001111100000000#18) :
    PsrOp.body (word.getLsbD 22) (.write (word.extractLsb' 0 4)) = word.extractLsb' 0 28 := by
  simp (disch := rfl) only [PsrOp.body, ofBool_getLsbD, ← top, ← middle,
    BitVec.extractLsb'_append_extractLsb'_eq_extractLsb']

theorem body_psr_writeFlags_immediate (group : word.extractLsb' 26 2 = 0b00#2) (code : word.extractLsb' 23 2 = 0b10#2)
    (middle : word.extractLsb' 12 10 = 0b1010001111#10) (form : word.getLsbD 25 = true) :
    PsrOp.body (word.getLsbD 22) (.writeFlags (.immediate (word.extractLsb' 0 12))) = word.extractLsb' 0 28 := by
  simp (disch := rfl) only [PsrOp.body, FlagSource.isImmediate, FlagSource.code, ofBool_getLsbD, ← form, ← group,
    ← code, ← middle, BitVec.extractLsb'_append_extractLsb'_eq_extractLsb']

theorem body_psr_writeFlags_register (group : word.extractLsb' 26 2 = 0b00#2) (code : word.extractLsb' 23 2 = 0b10#2)
    (middle : word.extractLsb' 12 10 = 0b1010001111#10) (form : word.getLsbD 25 = false) :
    AgreeOutside (0xff0#28) (PsrOp.body (word.getLsbD 22) (.writeFlags (.register (word.extractLsb' 0 4))))
      (word.extractLsb' 0 28) := by
  have upper : 0b00#2 ++ BitVec.ofBool false ++ 0b10#2 ++ BitVec.ofBool (word.getLsbD 22) ++ 0b1010001111#10 =
      word.extractLsb' 12 16 := by
    simp (disch := rfl) only [← form, ofBool_getLsbD, ← group, ← code, ← middle,
      BitVec.extractLsb'_append_extractLsb'_eq_extractLsb']
  have lower : word.extractLsb' 4 8 ++ word.extractLsb' 0 4 = word.extractLsb' 0 12 :=
    BitVec.extractLsb'_append_extractLsb'_eq_extractLsb' rfl
  have whole : word.extractLsb' 12 16 ++ word.extractLsb' 0 12 = word.extractLsb' 0 28 :=
    BitVec.extractLsb'_append_extractLsb'_eq_extractLsb' rfl
  have mask : 0xff0#28 = 0#16 ++ (BitVec.allOnes 8 ++ 0#4) := by decide
  rw [← whole, ← lower, mask, PsrOp.body, FlagSource.isImmediate, FlagSource.code, upper]
  exact (AgreeOutside.refl _ _).append ((AgreeOutside.allOnes _ _).append (AgreeOutside.refl _ _))

theorem body_countLeadingZeros (shape : isCountLeadingZeros word = true) :
    AgreeOutside 0x00f0f00#28 (countLeadingZeros (word.extractLsb' 12 4) (word.extractLsb' 0 4)).body
      (word.extractLsb' 0 28) := by
  obtain ⟨top, mark⟩ : word.extractLsb' 20 8 = 0b00010110#8 ∧ word.extractLsb' 4 4 = 0b0001#4 := by
    simpa [isCountLeadingZeros] using shape
  have whole : word.extractLsb' 20 8 ++ word.extractLsb' 16 4 ++ word.extractLsb' 12 4 ++ word.extractLsb' 8 4 ++
      word.extractLsb' 4 4 ++ word.extractLsb' 0 4 = word.extractLsb' 0 28 := by
    simp (disch := rfl) only [BitVec.extractLsb'_append_extractLsb'_eq_extractLsb']
  have mask : 0x00f0f00#28 = 0#8 ++ BitVec.allOnes 4 ++ 0#4 ++ BitVec.allOnes 4 ++ 0#4 ++ 0#4 := by decide
  rw [← whole, top, mark, mask, body]
  refine AgreeOutside.append (AgreeOutside.append (AgreeOutside.append (AgreeOutside.append (AgreeOutside.append
    (.refl _ _) (.allOnes _ _)) (.refl _ _)) (.allOnes _ _)) (.refl _ _)) (.refl _ _)

theorem isImmediate_halfwordTransferOf (word : Word) : (halfwordTransferOf word).isImmediate = word.getLsbD 22 := by
  unfold HalfwordTransfer.isImmediate halfwordTransferOf HalfwordOffset.ofWord
  cases word.getLsbD 22 <;> rfl

/-- The form of the offset only shows in its upper half. -/
theorem body_halfwordTransferOf (shape : isHalfwordTransfer word = true) :
    (halfwordTransferOf word).body =
      word.extractLsb' 12 16 ++ (halfwordTransferOf word).upperOffset ++ word.extractLsb' 0 8 := by
  obtain ⟨⟨top, high⟩, low⟩ : (word.extractLsb' 25 3 = 0b000#3 ∧ word.getLsbD 7 = true) ∧ word.getLsbD 4 = true := by
    simpa [isHalfwordTransfer] using shape
  have kind := HalfwordKind.bits_ofWord word
  have form := isImmediate_halfwordTransferOf word
  have offset : (halfwordTransferOf word).lowerOffset = word.extractLsb' 0 4 := by
    unfold HalfwordTransfer.lowerOffset halfwordTransferOf HalfwordOffset.ofWord
    cases word.getLsbD 22 with
    | false => rfl
    | true => exact BitVec.extractLsb'_append_eq_right
  have upper : 0b000#3 ++ BitVec.ofBool (word.getLsbD 24) ++ BitVec.ofBool (word.getLsbD 23) ++
      BitVec.ofBool (word.getLsbD 22) ++ BitVec.ofBool (word.getLsbD 21) ++ BitVec.ofBool (word.getLsbD 20) ++
      word.extractLsb' 16 4 ++ word.extractLsb' 12 4 = word.extractLsb' 12 16 := by
    simp (disch := rfl) only [← top, ofBool_getLsbD, BitVec.extractLsb'_append_extractLsb'_eq_extractLsb']
  have lower : BitVec.ofBool (word.getLsbD 7) ++ BitVec.ofBool (word.getLsbD 6) ++ BitVec.ofBool (word.getLsbD 5) ++
      BitVec.ofBool (word.getLsbD 4) ++ word.extractLsb' 0 4 = word.extractLsb' 0 8 := by
    simp (disch := rfl) only [ofBool_getLsbD, BitVec.extractLsb'_append_extractLsb'_eq_extractLsb']
  rw [high, low] at lower
  rw [← upper, ← lower, HalfwordTransfer.body, form, offset]
  simp only [halfwordTransferOf, addressingOf, Indexing.bit_ofBit, Direction.bit_ofBit, Transfer.bit_ofBit,
    HalfwordKind.bits_ofWord]
  rfl

theorem body_halfwordTransferOf_immediate (shape : isHalfwordTransfer word = true) (form : word.getLsbD 22 = true) :
    (halfwordTransferOf word).body = word.extractLsb' 0 28 := by
  have upper : (halfwordTransferOf word).upperOffset = word.extractLsb' 8 4 := by
    rw [HalfwordTransfer.upperOffset, halfwordTransferOf, HalfwordOffset.ofWord, if_pos form]
    exact BitVec.extractLsb'_append_eq_left
  rw [body_halfwordTransferOf shape, upper]
  simp (disch := rfl) only [BitVec.extractLsb'_append_extractLsb'_eq_extractLsb']

theorem body_halfwordTransferOf_agree (shape : isHalfwordTransfer word = true) :
    AgreeOutside 0xf00#28 (halfwordTransferOf word).body (word.extractLsb' 0 28) := by
  have whole : word.extractLsb' 12 16 ++ word.extractLsb' 8 4 ++ word.extractLsb' 0 8 = word.extractLsb' 0 28 := by
    simp (disch := rfl) only [BitVec.extractLsb'_append_extractLsb'_eq_extractLsb']
  have mask : 0xf00#28 = 0#16 ++ BitVec.allOnes 4 ++ 0#8 := by decide
  rw [body_halfwordTransferOf shape, ← whole, mask]
  exact (AgreeOutside.append (.refl _ _) (.allOnes _ _)).append (.refl _ _)

end Instruction

namespace Vfp

/-- The opcode and the numbers of the registers are put together from bits that lie apart. -/
theorem DataProcessing.body_eq {precision : Precision} {op : DataOp}
    (coprocessor : precision.coprocessor = word.extractLsb' 8 4) (opcode : op.opcode = opcodeField word)
    (top : word.extractLsb' 24 4 = 0b1110#4) (form : word.getLsbD 4 = false) :
    DataProcessing.body ⟨precision, op, destinationField word, firstField word, secondField word⟩ =
      word.extractLsb' 0 28 := by
  have highest : (opcodeField word).extractLsb' 3 1 = word.extractLsb' 23 1 :=
    (BitVec.extractLsb'_append_eq_of_le (by decide)).trans BitVec.extractLsb'_append_eq_left
  have middle : (opcodeField word).extractLsb' 1 2 = word.extractLsb' 20 2 :=
    (BitVec.extractLsb'_append_eq_of_le (by decide)).trans BitVec.extractLsb'_append_eq_right
  have lowest : (opcodeField word).extractLsb' 0 1 = word.extractLsb' 6 1 := BitVec.extractLsb'_append_eq_right
  have bit : word.extractLsb' 4 1 = 0#1 := (ofBool_getLsbD word 4).symm.trans (congrArg BitVec.ofBool form)
  simp (disch := rfl) only [DataProcessing.body, opcode, coprocessor, highest, middle, lowest, destinationField,
    firstField, secondField, Slot.upper_append, Slot.lowest_append, ← top, ← bit,
    BitVec.extractLsb'_append_extractLsb'_eq_extractLsb']

theorem LoadStore.body_eq {precision : Precision} (coprocessor : precision.coprocessor = word.extractLsb' 8 4)
    (top : word.extractLsb' 25 3 = 0b110#3) :
    LoadStore.body ⟨precision, AddressMode.ofWord word, Transfer.ofBit (word.getLsbD 20), word.extractLsb' 16 4,
      destinationField word, word.extractLsb' 0 8⟩ = word.extractLsb' 0 28 := by
  have upper : (word.extractLsb' 23 2 ++ word.extractLsb' 21 1).extractLsb' 1 2 = word.extractLsb' 23 2 :=
    BitVec.extractLsb'_append_eq_left
  have lower : (word.extractLsb' 23 2 ++ word.extractLsb' 21 1).extractLsb' 0 1 = word.extractLsb' 21 1 :=
    BitVec.extractLsb'_append_eq_right
  simp (disch := rfl) only [LoadStore.body, AddressMode.ofWord, AddressMode.bits_ofBits, upper, lower, coprocessor,
    destinationField, Transfer.bit_ofBit, ofBool_getLsbD, Slot.upper_append, Slot.lowest_append, ← top,
    BitVec.extractLsb'_append_extractLsb'_eq_extractLsb']

theorem RegisterTransfer.body_agree {precision : Precision} (coprocessor : precision.coprocessor = word.extractLsb' 8 4)
    (top : word.extractLsb' 24 4 = 0b1110#4) (mark : word.extractLsb' 4 3 = 0b001#3) :
    AgreeOutside 0xf#28
      (RegisterTransfer.body ⟨precision, TransferOp.ofOpcode precision (word.extractLsb' 20 4), firstField word,
        word.extractLsb' 12 4⟩) (word.extractLsb' 0 28) := by
  have upper : 0b1110#4 ++ word.extractLsb' 20 4 ++ word.extractLsb' 16 4 ++ word.extractLsb' 12 4 ++
      word.extractLsb' 8 4 ++ word.extractLsb' 7 1 ++ 0b001#3 = word.extractLsb' 4 24 := by
    simp (disch := rfl) only [← top, ← mark, BitVec.extractLsb'_append_extractLsb'_eq_extractLsb']
  have whole : word.extractLsb' 4 24 ++ word.extractLsb' 0 4 = word.extractLsb' 0 28 :=
    BitVec.extractLsb'_append_extractLsb'_eq_extractLsb' rfl
  have mask : 0xf#28 = 0#24 ++ BitVec.allOnes 4 := by decide
  rw [← whole, mask, RegisterTransfer.body]
  simp only [TransferOp.opcode_ofOpcode, coprocessor, firstField, Slot.upper_append, Slot.lowest_append, upper]
  exact (AgreeOutside.refl _ _).append (.allOnes _ _)

theorem Reads.body_agree {instruction : Instruction} (reads : Reads word instruction) :
    AgreeOutside ((Arm32.Instruction.vfp instruction).ignoredBits.extractLsb' 0 28) instruction.body
      (word.extractLsb' 0 28) := by
  cases reads with
  | registerTransfer known top mark =>
      exact RegisterTransfer.body_agree (Precision.coprocessor_of_ofCoprocessor? known) top mark
  | dataProcessing known top form =>
      refine .of_eq (DataProcessing.body_eq (Precision.coprocessor_of_ofCoprocessor? known) ?_ top form)
      exact DataOp.opcode_ofOpcode _ _
  | loadStore known top => exact .of_eq (LoadStore.body_eq (Precision.coprocessor_of_ofCoprocessor? known) top)

end Vfp

namespace Instruction

variable {instruction : Instruction}

theorem Reads.body_agree (reads : Reads word instruction) (known : instruction.isCatchAll = false) :
    AgreeOutside (instruction.ignoredBits.extractLsb' 0 28) instruction.body (word.extractLsb' 0 28) := by
  cases reads with
  | multiply shape => exact .of_eq (body_multiplyOf shape)
  | multiplyLong shape => exact .of_eq (body_multiplyLongOf shape)
  | countLeadingZeros _ _ _ shape => exact body_countLeadingZeros shape
  | swap shape => exact .of_eq (body_swapOf shape)
  | halfwordTransfer _ _ _ _ _ shape =>
      cases form : word.getLsbD 22 with
      | true => exact .of_eq (body_halfwordTransferOf_immediate shape form)
      | false =>
          have mask : (ignoredBits (.halfwordTransfer (halfwordTransferOf word))).extractLsb' 0 28 = 0xf00#28 := by
            rw [ignoredBits, isImmediate_halfwordTransferOf, form]
            rfl
          rw [mask]
          exact body_halfwordTransferOf_agree shape
  | psrTransfer group _ _ _ _ _ _ reads =>
      cases reads with
      | read top middle bottom => exact .of_eq (body_psr_read top middle bottom)
      | write top middle => exact .of_eq (body_psr_write top middle)
      | immediateFlags code middle form => exact .of_eq (body_psr_writeFlags_immediate group code middle form)
      | registerFlags code middle form => exact body_psr_writeFlags_register group code middle form
      | undefined => cases known
  | dataProcessing group => exact .of_eq (body_dataProcessingOf group)
  | undefined => cases known
  | singleTransfer group => exact .of_eq (body_singleTransferOf group)
  | branch group form => exact .of_eq (body_branch group form)
  | blockTransfer group form => exact .of_eq (body_blockTransferOf group form)
  | vfp _ reads => exact reads.body_agree
  | coprocessor => cases known

/-- The encoder gives back every bit that the decoder has read. -/
theorem encode_decode_agree (known : (decode word).isCatchAll = false) :
    AgreeOutside (decode word).ignoredBits (encode (word.extractLsb' 28 4) (decode word)) word := by
  have whole (word : Word) : word.extractLsb' 28 4 ++ word.extractLsb' 0 28 = word :=
    (BitVec.extractLsb'_append_extractLsb'_eq_extractLsb' rfl).trans BitVec.extractLsb'_eq_self
  have agree := (AgreeOutside.refl ((decode word).ignoredBits.extractLsb' 28 4) (word.extractLsb' 28 4)).append
    ((reads_decode word).body_agree known)
  rw [whole, whole] at agree
  exact agree

end Instruction

end Arm32
