import Arm32.Proofs.Decoding.Condition
import Arm32.Proofs.Decoding.RoundTrip

/-! How many words an instruction has. The bits that the decoder does not read can be changed, as long as the word is
not taken for another class. -/

namespace Arm32.Instruction

open Bits (AgreeOutside getLsbD_of_field)

variable {word other : Word}

/-! ### Words that are read alike -/

theorem decode_eq_countLeadingZeros {rd rm : Reg} (reads : Reads word (.countLeadingZeros rd rm))
    (agree : AgreeOutside 0x000f0f00 other word) : decode other = .countLeadingZeros rd rm := by
  cases reads with
  | countLeadingZeros group notMultiply notLong shape =>
      rw [decode_arithmetic ((agree.field 26 2 (by decide)).trans group), decodeArithmetic]
      simp (disch := decide) only [agree.isMultiply, notMultiply, agree.isMultiplyLong, notLong,
        agree.isCountLeadingZeros, shape, agree.field, Bool.false_eq_true, if_false, if_true]

/-- With zeros in the upper half of its offset, a halfword transfer of no kind would be a swap. -/
theorem decode_eq_halfwordTransfer {fields : HalfwordTransfer} (reads : Reads word (.halfwordTransfer fields))
    (form : fields.isImmediate = false) (agree : AgreeOutside 0x00000f00 other word) (notSwap : isSwap other = false) :
    decode other = .halfwordTransfer fields := by
  cases reads with
  | halfwordTransfer group notMultiply notLong notCount _ shape =>
      have register : word.getLsbD 22 = false := (isImmediate_halfwordTransferOf word).symm.trans form
      have offset : HalfwordOffset.ofWord other = HalfwordOffset.ofWord word := by
        simp (disch := decide) only [HalfwordOffset.ofWord, agree.bit, register, agree.field, Bool.false_eq_true,
          if_false]
      have same : halfwordTransferOf other = halfwordTransferOf word := by
        simp (disch := decide) only [halfwordTransferOf, addressingOf, HalfwordKind.ofWord, offset, agree.field,
          agree.bit]
      rw [decode_arithmetic ((agree.field 26 2 (by decide)).trans group), decodeArithmetic]
      simp (disch := decide) only [agree.isMultiply, notMultiply, agree.isMultiplyLong, notLong,
        agree.isCountLeadingZeros, notCount, notSwap, agree.isHalfwordTransfer, shape, same, Bool.false_eq_true,
        if_false, if_true]

theorem decode_eq_registerFlags {saved : Bool} {rm : Reg}
    (reads : Reads word (.psrTransfer saved (.writeFlags (.register rm)))) (agree : AgreeOutside 0x00000ff0 other word)
    (notCount : isCountLeadingZeros other = false) (notHalfword : isHalfwordTransfer other = false) :
    decode other = .psrTransfer saved (.writeFlags (.register rm)) := by
  cases reads with
  | psrTransfer group _ _ _ _ _ shape reads =>
      cases reads with
      | registerFlags code middle form =>
          have group' : other.extractLsb' 26 2 = 0b00#2 := (agree.field 26 2 (by decide)).trans group
          have code' : other.extractLsb' 23 2 = 0b10#2 := (agree.field 23 2 (by decide)).trans code
          have middle' : other.extractLsb' 12 10 = 0b1010001111#10 := (agree.field 12 10 (by decide)).trans middle
          -- Three bits keep the word from the classes and the forms that are tried before.
          have bit24 : other.getLsbD 24 = true := getLsbD_of_field code' (show 1 < 2 by decide)
          have bit21 : other.getLsbD 21 = true := getLsbD_of_field middle' (show 9 < 10 by decide)
          have bit16 : other.getLsbD 16 = false := getLsbD_of_field middle' (show 4 < 10 by decide)
          have multiply : other.extractLsb' 22 6 ≠ 0b000000#6 := fun same =>
            Bool.noConfusion (bit24.symm.trans (getLsbD_of_field same (show 2 < 6 by decide)))
          have multiplyLong : other.extractLsb' 23 5 ≠ 0b00001#5 := fun same =>
            Bool.noConfusion (bit24.symm.trans (getLsbD_of_field same (show 1 < 5 by decide)))
          have swap : other.extractLsb' 20 2 ≠ 0b00#2 := fun same =>
            Bool.noConfusion (bit21.symm.trans (getLsbD_of_field same (show 1 < 2 by decide)))
          have read : other.extractLsb' 16 6 ≠ 0b001111#6 := fun same =>
            Bool.noConfusion (bit16.symm.trans (getLsbD_of_field same (show 0 < 6 by decide)))
          have write : other.extractLsb' 4 18 ≠ 0b101001111100000000#18 := fun same =>
            Bool.noConfusion (bit16.symm.trans (getLsbD_of_field same (show 12 < 18 by decide)))
          have tests : isMultiply other = false ∧ isMultiplyLong other = false ∧ isSwap other = false := by
            simp [isMultiply, isMultiplyLong, isSwap, multiply, multiplyLong, swap]
          have psr : isPsrTransfer other = true := (agree.isPsrTransfer (by decide) (by decide)).trans shape
          have op : PsrOp.ofWord other = .writeFlags (.register (word.extractLsb' 0 4)) := by
            rw [PsrOp.ofWord, if_neg fun top => read top.2.1, if_neg fun top => write top.2,
              if_pos ⟨group', code', middle'⟩, agree.bit 25 (by decide), form, agree.field 0 4 (by decide)]
            rfl
          rw [decode_arithmetic group', decodeArithmetic]
          simp only [tests, notCount, notHalfword, psr, op, agree.bit 22 (by decide), Bool.false_eq_true, if_false,
            if_true]

theorem decode_eq_vfpTransfer {fields : Vfp.RegisterTransfer} (reads : Reads word (.vfp (.registerTransfer fields)))
    (agree : AgreeOutside 0x0000000f other word) : decode other = .vfp (.registerTransfer fields) := by
  cases reads with
  | vfp group reads =>
      cases reads with
      | registerTransfer known top mark =>
          have decoded := Vfp.decode?_registerTransfer ((agree.field 8 4 (by decide)).symm ▸ known)
            ((agree.field 24 4 (by decide)).trans top) ((agree.field 4 3 (by decide)).trans mark)
          rw [decode_coprocessor ((agree.field 26 2 (by decide)).trans group), decodeCoprocessor, decoded]
          simp (disch := decide) only [Vfp.firstField, agree.field]

theorem decode_eq_undefined (reads : Reads word .undefined) (agree : AgreeOutside 0x00000001 other word) :
    decode other = .undefined := by
  cases reads with
  | undefined group form mark =>
      have group' := (agree.field 26 2 (by decide)).trans group
      have form' := (agree.bit 25 (by decide)).trans form
      have mark' := (agree.bit 4 (by decide)).trans mark
      rw [decode_singleTransfer group', decodeSingleTransfer, form', mark']
      rfl

theorem decode_eq_coprocessor (reads : Reads word .coprocessor) (agree : AgreeOutside 0x00000001 other word) :
    decode other = .coprocessor := by
  cases reads with
  | coprocessor group none =>
      have same : (Vfp.Instruction.decode? other).isSome = (Vfp.Instruction.decode? word).isSome := by
        simp (disch := decide) only [Vfp.Instruction.decode?, agree.field, agree.bit]
        cases Vfp.Precision.ofCoprocessor? (word.extractLsb' 8 4) with
        | none => rfl
        | some precision =>
            show (if _ then _ else _ : Option Vfp.Instruction).isSome =
              (if _ then _ else _ : Option Vfp.Instruction).isSome
            split
            · rfl
            · split
              · rfl
              · split <;> rfl
      rw [none, Option.isSome_none, Option.isSome_eq_false_iff, Option.isNone_iff_eq_none] at same
      rw [decode_coprocessor ((agree.field 26 2 (by decide)).trans group), decodeCoprocessor, same]

/-- A set lowest bit keeps the word from being a read of the status register. -/
theorem decode_eq_undefinedPsr {saved : Bool} (reads : Reads word (.psrTransfer saved .undefined))
    (agree : AgreeOutside 0x00000003 other word) (odd : other.getLsbD 0 = true) :
    decode other = .psrTransfer saved .undefined := by
  cases reads with
  | psrTransfer group notMultiply notLong notCount notSwap notHalfword shape reads =>
      cases reads with
      | undefined notWrite notFlags =>
          have read : other.extractLsb' 0 12 ≠ 0#12 := fun same =>
            Bool.noConfusion (odd.symm.trans (getLsbD_of_field same (show 0 < 12 by decide)))
          have op : PsrOp.ofWord other = .undefined := by
            rw [← agree.field 23 5 (by decide), ← agree.field 4 18 (by decide)] at notWrite
            rw [← agree.field 26 2 (by decide), ← agree.field 23 2 (by decide), ← agree.field 12 10 (by decide)]
              at notFlags
            rw [PsrOp.ofWord, if_neg fun top => read top.2.2]
            exact (if_neg notWrite).trans (if_neg notFlags)
          rw [decode_arithmetic ((agree.field 26 2 (by decide)).trans group), decodeArithmetic]
          simp (disch := decide) only [agree.isMultiply, notMultiply, agree.isMultiplyLong, notLong,
            agree.isCountLeadingZeros, notCount, agree.isSwap, notSwap, agree.isHalfwordTransfer, notHalfword,
            agree.isPsrTransfer, shape, op, agree.bit, Bool.false_eq_true, if_false, if_true]

/-! ### The word of the encoder -/

variable {instruction : Instruction} {condition : BitVec 4}

theorem condition_encode : (encode condition instruction).extractLsb' 28 4 = condition :=
  BitVec.extractLsb'_append_eq_left

theorem encode_agree (first second : BitVec 4) (instruction : Instruction) :
    AgreeOutside Word.conditionMask (encode first instruction) (encode second instruction) := by
  have mask : Word.conditionMask = BitVec.allOnes 4 ++ 0#28 := by decide
  rw [mask]
  exact (AgreeOutside.allOnes _ _).append (.refl _ _)

theorem isSwap_encode_halfwordTransfer {fields : HalfwordTransfer} (form : fields.isImmediate = false) :
    isSwap (encode condition (.halfwordTransfer fields)) = false := by
  have upper : (encode condition (.halfwordTransfer fields)).extractLsb' 8 4 = fields.upperOffset :=
    (BitVec.extractLsb'_append_eq_of_add_le (by decide)).trans
      ((BitVec.extractLsb'_append_eq_of_le (by decide)).trans BitVec.extractLsb'_append_eq_right)
  have lower : (encode condition (.halfwordTransfer fields)).extractLsb' 4 4 =
      1#1 ++ BitVec.ofBool fields.kind.isSigned ++ BitVec.ofBool fields.kind.isHalfword ++ 1#1 :=
    (BitVec.extractLsb'_append_eq_of_add_le (by decide)).trans
      ((BitVec.extractLsb'_append_eq_of_add_le (by decide)).trans BitVec.extractLsb'_append_eq_left)
  have whole (word : Word) : word.extractLsb' 8 4 ++ word.extractLsb' 4 4 = word.extractLsb' 4 8 :=
    BitVec.extractLsb'_append_extractLsb'_eq_extractLsb' rfl
  have offset : fields.upperOffset = if fields.kind = .swap then 1 else 0 := by
    unfold HalfwordTransfer.upperOffset
    unfold HalfwordTransfer.isImmediate at form
    split at form
    · cases form
    · rfl
  have differs : (encode condition (.halfwordTransfer fields)).extractLsb' 4 8 ≠ 0b00001001#8 := by
    rw [← whole, upper, lower, offset]
    cases fields.kind <;> decide
  simp [isSwap, differs]

theorem tests_encode_registerFlags {saved : Bool} {rm : Reg} :
    isCountLeadingZeros (encode condition (.psrTransfer saved (.writeFlags (.register rm)))) = false ∧
      isHalfwordTransfer (encode condition (.psrTransfer saved (.writeFlags (.register rm)))) = false := by
  have mark : (encode condition (.psrTransfer saved (.writeFlags (.register rm)))).extractLsb' 4 4 = 0b0000#4 :=
    (BitVec.extractLsb'_append_eq_of_add_le (by decide)).trans
      ((BitVec.extractLsb'_append_eq_of_add_le (by decide)).trans
        ((BitVec.extractLsb'_append_eq_of_le (by decide)).trans (by decide)))
  have bit := getLsbD_of_field mark (show 0 < 4 by decide)
  constructor
  · simp [isCountLeadingZeros, mark]
  · simp only [isHalfwordTransfer, bit, Bool.and_eq_false_iff]
    exact .inr rfl

/-- The decoder undoes the encoder on whatever it has answered. -/
theorem decode_encode_decode (condition : BitVec 4) (word : Word) :
    decode (encode condition (decode word)) = decode word := by
  rw [decode_of_agreeOutside (encode_agree condition (word.extractLsb' 28 4) (decode word))]
  have reads := reads_decode word
  have agree := @encode_decode_agree word
  generalize decoded : decode word = instruction at reads agree ⊢
  have whole (known : instruction.isCatchAll = false) (read : instruction.ignoredBits = 0) :
      decode (encode (word.extractLsb' 28 4) instruction) = instruction := by
    have same := agree known
    rw [read, Bits.agreeOutside_zero] at same
    rw [same, decoded]
  cases instruction with
  | countLeadingZeros rd rm => exact decode_eq_countLeadingZeros reads (agree rfl)
  | halfwordTransfer fields =>
      cases form : fields.isImmediate with
      | true => exact whole rfl (by rw [ignoredBits, form]; rfl)
      | false =>
          have masked := agree rfl
          rw [ignoredBits, form] at masked
          exact decode_eq_halfwordTransfer reads form masked (isSwap_encode_halfwordTransfer form)
  | psrTransfer saved op =>
      cases op with
      | writeFlags source =>
          cases source with
          | immediate field => exact whole rfl rfl
          | register rm =>
              exact decode_eq_registerFlags reads (agree rfl) tests_encode_registerFlags.1 tests_encode_registerFlags.2
      | undefined =>
          rw [decode_of_agreeOutside (encode_agree (word.extractLsb' 28 4) 0 _)]
          cases saved <;> decide
      | read _ | write _ => exact whole rfl rfl
  | undefined =>
      rw [decode_of_agreeOutside (encode_agree (word.extractLsb' 28 4) 0 .undefined)]
      decide
  | coprocessor =>
      rw [decode_of_agreeOutside (encode_agree (word.extractLsb' 28 4) 0 .coprocessor)]
      decide
  | vfp inner =>
      cases inner with
      | registerTransfer fields => exact decode_eq_vfpTransfer reads (agree rfl)
      | dataProcessing fields => exact whole rfl rfl
      | loadStore fields => exact whole rfl rfl
  | dataProcessing _ | multiply _ | multiplyLong _ | swap _ | singleTransfer _ | blockTransfer _ | branch _ _ =>
      exact whole rfl rfl

/-! ### Instructions with several encodings -/

/-- A word with the same condition that is read as the same instruction. -/
def Recodes (other word : Word) : Prop :=
  other.extractLsb' 28 4 = word.extractLsb' 28 4 ∧ decode other = decode word

theorem agree_of_recodes (recodes : Recodes other word) (known : (decode word).isCatchAll = false) :
    AgreeOutside (decode word).ignoredBits other word := by
  obtain ⟨sameCondition, sameInstruction⟩ := recodes
  have first := @encode_decode_agree other (sameInstruction ▸ known)
  rw [sameCondition, sameInstruction] at first
  exact first.symm.trans (encode_decode_agree known)

/-- Inverting bits below the condition gives another word. -/
theorem exists_of_inverted {inverted : Word} (inverts : inverted ≠ 0) (below : inverted.extractLsb' 28 4 = 0#4)
    (decoded : decode (word ^^^ inverted) = decode word) : ∃ other, other ≠ word ∧ Recodes other word := by
  refine ⟨word ^^^ inverted, fun same => inverts ?_, ?_, decoded⟩
  · have cancelled : word ^^^ inverted = word ^^^ 0#32 := by rw [same, BitVec.xor_zero]
    exact (BitVec.xor_right_inj word).mp cancelled
  · rw [BitVec.extractLsb'_xor, below, BitVec.xor_zero]

theorem getLsbD_of_isSwap (shape : isSwap word = true) : word.getLsbD 8 = false := by
  simp only [isSwap, Bool.and_eq_true, beq_iff_eq] at shape
  exact getLsbD_of_field shape.2 (show 4 < 8 by decide)

/-- Only one upper half reads as a swap, so of two other words one does not. -/
theorem exists_recodes_of_halfwordTransfer {fields : HalfwordTransfer} (decoded : decode word = .halfwordTransfer fields)
    (form : fields.isImmediate = false) : ∃ other, other ≠ word ∧ Recodes other word := by
  have reads : Reads word (.halfwordTransfer fields) := decoded ▸ reads_decode word
  cases first : isSwap (word ^^^ 0x100) with
  | false =>
      refine @exists_of_inverted word 0x100 (by decide) (by decide) ?_
      rw [decoded]
      exact decode_eq_halfwordTransfer reads form (AgreeOutside.xor (by decide) word) first
  | true =>
      have second : isSwap (word ^^^ 0x200) = false := by
        rw [← Bool.not_eq_true]
        intro shape
        have bit := getLsbD_of_isSwap first
        have bit' := getLsbD_of_isSwap shape
        rw [BitVec.getLsbD_xor] at bit bit'
        rw [show (0x100 : Word).getLsbD 8 = true by decide, Bool.xor_true, Bool.not_eq_false'] at bit
        rw [show (0x200 : Word).getLsbD 8 = false by decide, Bool.xor_false, bit] at bit'
        cases bit'
      refine @exists_of_inverted word 0x200 (by decide) (by decide) ?_
      rw [decoded]
      exact decode_eq_halfwordTransfer reads form (AgreeOutside.xor (by decide) word) second

theorem exists_recodes_of_registerFlags {saved : Bool} {rm : Reg}
    (decoded : decode word = .psrTransfer saved (.writeFlags (.register rm))) :
    ∃ other, other ≠ word ∧ Recodes other word := by
  have reads : Reads word (.psrTransfer saved (.writeFlags (.register rm))) := decoded ▸ reads_decode word
  have agree : AgreeOutside 0x100 (word ^^^ 0x100) word := AgreeOutside.xor (by decide) word
  have tests : isCountLeadingZeros (word ^^^ 0x100) = false ∧ isHalfwordTransfer (word ^^^ 0x100) = false := by
    cases reads with
    | psrTransfer _ _ _ notCount _ notHalfword =>
        exact ⟨(agree.isCountLeadingZeros (by decide) (by decide)).trans notCount,
          (agree.isHalfwordTransfer (by decide) (by decide) (by decide)).trans notHalfword⟩
  refine @exists_of_inverted word 0x100 (by decide) (by decide) ?_
  rw [decoded]
  exact decode_eq_registerFlags reads (AgreeOutside.xor (by decide) word) tests.1 tests.2

/-- One of the two lowest bits can be inverted so that the lowest is set. -/
theorem exists_recodes_of_undefinedPsr {saved : Bool} (decoded : decode word = .psrTransfer saved .undefined) :
    ∃ other, other ≠ word ∧ Recodes other word := by
  have reads : Reads word (.psrTransfer saved .undefined) := decoded ▸ reads_decode word
  cases lowest : word.getLsbD 0 with
  | false =>
      refine @exists_of_inverted word 1 (by decide) (by decide) ?_
      rw [decoded]
      refine decode_eq_undefinedPsr reads (AgreeOutside.xor (by decide) word) ?_
      rw [BitVec.getLsbD_xor, lowest]
      rfl
  | true =>
      refine @exists_of_inverted word 2 (by decide) (by decide) ?_
      rw [decoded]
      refine decode_eq_undefinedPsr reads (AgreeOutside.xor (by decide) word) ?_
      rw [BitVec.getLsbD_xor, lowest]
      rfl

theorem exists_recodes_iff (word : Word) :
    (∃ other, other ≠ word ∧ Recodes other word) ↔
      (decode word).isCatchAll = true ∨ (decode word).ignoredBits ≠ 0 := by
  constructor
  · rintro ⟨other, differs, recodes⟩
    cases known : (decode word).isCatchAll with
    | true => exact .inl rfl
    | false =>
        refine .inr fun read => differs ?_
        have agree := agree_of_recodes recodes known
        rwa [read, Bits.agreeOutside_zero] at agree
  · intro several
    have reads := reads_decode word
    cases decoded : decode word with
    | countLeadingZeros rd rm =>
        refine @exists_of_inverted word 0x100 (by decide) (by decide) ?_
        rw [decoded] at reads ⊢
        exact decode_eq_countLeadingZeros reads (AgreeOutside.xor (by decide) word)
    | halfwordTransfer fields =>
        refine exists_recodes_of_halfwordTransfer decoded (Bool.eq_false_iff.mpr fun immediate => ?_)
        rw [decoded] at several
        simp [isCatchAll, ignoredBits, immediate] at several
    | psrTransfer saved op =>
        cases op with
        | writeFlags source =>
            cases source with
            | register rm => exact exists_recodes_of_registerFlags decoded
            | immediate field => exact absurd several (by simp [decoded, isCatchAll, ignoredBits])
        | undefined => exact exists_recodes_of_undefinedPsr decoded
        | read _ | write _ => exact absurd several (by simp [decoded, isCatchAll, ignoredBits])
    | undefined =>
        refine @exists_of_inverted word 1 (by decide) (by decide) ?_
        rw [decoded] at reads ⊢
        exact decode_eq_undefined reads (AgreeOutside.xor (by decide) word)
    | coprocessor =>
        refine @exists_of_inverted word 1 (by decide) (by decide) ?_
        rw [decoded] at reads ⊢
        exact decode_eq_coprocessor reads (AgreeOutside.xor (by decide) word)
    | vfp inner =>
        cases inner with
        | registerTransfer fields =>
            refine @exists_of_inverted word 1 (by decide) (by decide) ?_
            rw [decoded] at reads ⊢
            exact decode_eq_vfpTransfer reads (AgreeOutside.xor (by decide) word)
        | dataProcessing _ | loadStore _ => exact absurd several (by simp [decoded, isCatchAll, ignoredBits])
    | dataProcessing _ | multiply _ | multiplyLong _ | swap _ | singleTransfer _ | blockTransfer _ | branch _ _ =>
        exact absurd several (by simp [decoded, isCatchAll, ignoredBits])

theorem isSwap_of_classOf (classOf : (decode word).classOf = .halfwordTransfer) : isSwap word = false := by
  have reads := reads_decode word
  generalize decode word = instruction at reads classOf
  cases reads with
  | halfwordTransfer _ _ _ _ notSwap => exact notSwap
  | _ => cases classOf

theorem tests_of_classOf (classOf : (decode word).classOf = .psrTransfer) :
    isCountLeadingZeros word = false ∧ isHalfwordTransfer word = false := by
  have reads := reads_decode word
  generalize decode word = instruction at reads classOf
  cases reads with
  | psrTransfer _ _ _ notCount _ notHalfword => exact ⟨notCount, notHalfword⟩
  | _ => cases classOf

/-- What the ignored bits are does not matter, as long as the word stays in its class. -/
theorem decode_eq_of_agree (agree : AgreeOutside (decode word).ignoredBits other word)
    (classOf : (decode other).classOf = (decode word).classOf) : decode other = decode word := by
  have reads := reads_decode word
  have whole (read : (decode word).ignoredBits = 0) : decode other = decode word := by
    rw [read, Bits.agreeOutside_zero] at agree
    rw [agree]
  cases decoded : decode word with
  | countLeadingZeros rd rm =>
      rw [decoded] at reads agree
      exact decode_eq_countLeadingZeros reads agree
  | halfwordTransfer fields =>
      cases form : fields.isImmediate with
      | true =>
          rw [← decoded]
          exact whole (by rw [decoded, ignoredBits, form]; rfl)
      | false =>
          rw [decoded] at reads classOf agree
          rw [ignoredBits, form] at agree
          exact decode_eq_halfwordTransfer reads form agree (isSwap_of_classOf classOf)
  | psrTransfer saved op =>
      cases op with
      | writeFlags source =>
          cases source with
          | register rm =>
              rw [decoded] at reads classOf agree
              have tests := tests_of_classOf classOf
              exact decode_eq_registerFlags reads agree tests.1 tests.2
          | immediate field => exact decoded ▸ whole (by rw [decoded]; rfl)
      | read _ | write _ | undefined => exact decoded ▸ whole (by rw [decoded]; rfl)
  | vfp inner =>
      cases inner with
      | registerTransfer fields =>
          rw [decoded] at reads agree
          exact decode_eq_vfpTransfer reads agree
      | dataProcessing _ | loadStore _ => exact decoded ▸ whole (by rw [decoded]; rfl)
  | dataProcessing _ | multiply _ | multiplyLong _ | swap _ | singleTransfer _ | blockTransfer _ | branch _ _
  | undefined | coprocessor => exact decoded ▸ whole (by rw [decoded]; rfl)

theorem recodes_iff (known : (decode word).isCatchAll = false) :
    Recodes other word ↔
      (decode other).classOf = (decode word).classOf ∧ AgreeOutside (decode word).ignoredBits other word := by
  constructor
  · intro recodes
    exact ⟨congrArg classOf recodes.2, agree_of_recodes recodes known⟩
  · rintro ⟨sameClass, agree⟩
    have below : (decode word).ignoredBits.extractLsb' 28 4 = 0#4 := by
      unfold ignoredBits
      split <;> try rfl
      split <;> rfl
    exact ⟨agree.field 28 4 below, decode_eq_of_agree agree sameClass⟩

/-- Decoding loses the bits that are listed as ignored, and nothing else of a word that has a meaning. Such bits and the
words without a meaning are the only reasons for an instruction to have several words, and the encoder chooses one of
them. -/
theorem decode_loses_ignoredBits (word : Word) :
    (∀ other, (decode word).isCatchAll = false →
        (Recodes other word ↔
          (decode other).classOf = (decode word).classOf ∧ AgreeOutside (decode word).ignoredBits other word)) ∧
      ((∃ other, other ≠ word ∧ Recodes other word) ↔
        (decode word).isCatchAll = true ∨ (decode word).ignoredBits ≠ 0) ∧
      (∀ condition, (encode condition (decode word)).extractLsb' 28 4 = condition ∧
        decode (encode condition (decode word)) = decode word) ∧
      ((decode word).isCatchAll = false → (decode word).ignoredBits = 0 →
        encode (word.extractLsb' 28 4) (decode word) = word) := by
  refine ⟨fun other known => recodes_iff known, exists_recodes_iff word,
    fun condition => ⟨condition_encode, decode_encode_decode condition word⟩, fun known read => ?_⟩
  have agree := encode_decode_agree known
  rwa [read, Bits.agreeOutside_zero] at agree

/-- Two words of one count of leading zeros, and the only word of an addition. -/
theorem decode_loses_ignoredBits_count :
    Recodes 0xE1602013 0xE16F2F13 ∧ encode 0b1110 (decode 0xE0812003) = 0xE0812003 := by
  refine ⟨((decode_loses_ignoredBits 0xE16F2F13).1 0xE1602013 (by decide)).mpr ⟨by decide, by decide⟩, ?_⟩
  exact (decode_loses_ignoredBits 0xE0812003).2.2.2 (by decide) (by decide)

end Arm32.Instruction
