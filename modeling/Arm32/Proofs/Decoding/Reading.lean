import Arm32.Instruction.Decode

/-! The ways that the decoder reads a word, with the tests that a word has met and those that it has not. -/

namespace Arm32

namespace Vfp

/-- One constructor for each form of a floating-point instruction. -/
inductive Reads (word : Word) : Instruction → Prop
  | registerTransfer {precision : Precision}
      (known : Precision.ofCoprocessor? (word.extractLsb' 8 4) = some precision)
      (top : word.extractLsb' 24 4 = 0b1110#4) (mark : word.extractLsb' 4 3 = 0b001#3) :
      Reads word (.registerTransfer
        ⟨precision, TransferOp.ofOpcode precision (word.extractLsb' 20 4), firstField word, word.extractLsb' 12 4⟩)
  | dataProcessing {precision : Precision}
      (known : Precision.ofCoprocessor? (word.extractLsb' 8 4) = some precision)
      (top : word.extractLsb' 24 4 = 0b1110#4) (form : word.getLsbD 4 = false) :
      Reads word (.dataProcessing
        ⟨precision, DataOp.ofOpcode (opcodeField word) (firstField word), destinationField word, firstField word,
          secondField word⟩)
  | loadStore {precision : Precision}
      (known : Precision.ofCoprocessor? (word.extractLsb' 8 4) = some precision)
      (top : word.extractLsb' 25 3 = 0b110#3) :
      Reads word (.loadStore
        ⟨precision, AddressMode.ofWord word, Transfer.ofBit (word.getLsbD 20), word.extractLsb' 16 4,
          destinationField word, word.extractLsb' 0 8⟩)

variable {word : Word} {instruction : Instruction}

theorem reads_of_decode? (decoded : Instruction.decode? word = some instruction) : Reads word instruction := by
  cases known : Precision.ofCoprocessor? (word.extractLsb' 8 4) with
  | none =>
      rw [Instruction.decode?, known] at decoded
      cases decoded
  | some precision =>
      rw [Instruction.decode?, known] at decoded
      change (if _ then _ else _) = _ at decoded
      split at decoded
      case isTrue shape =>
          cases decoded
          exact .registerTransfer known shape.1 shape.2
      case isFalse =>
          split at decoded
          case isTrue shape =>
              cases decoded
              exact .dataProcessing known shape.1 (by simpa using shape.2)
          case isFalse =>
              split at decoded
              case isTrue shape =>
                  cases decoded
                  exact .loadStore known shape
              case isFalse => cases decoded

theorem decode?_registerTransfer {precision : Precision}
    (known : Precision.ofCoprocessor? (word.extractLsb' 8 4) = some precision)
    (top : word.extractLsb' 24 4 = 0b1110#4) (mark : word.extractLsb' 4 3 = 0b001#3) :
    Instruction.decode? word = some (.registerTransfer
      ⟨precision, TransferOp.ofOpcode precision (word.extractLsb' 20 4), firstField word, word.extractLsb' 12 4⟩) := by
  rw [Instruction.decode?, known]
  exact if_pos ⟨top, mark⟩

end Vfp

namespace PsrOp

/-- One constructor for each form of a move of the status register, and one for the words that are none. -/
inductive Reads (word : Word) : PsrOp → Prop
  | read (top : word.extractLsb' 23 5 = 0b00010#5) (middle : word.extractLsb' 16 6 = 0b001111#6)
      (bottom : word.extractLsb' 0 12 = 0#12) : Reads word (.read (word.extractLsb' 12 4))
  | write (top : word.extractLsb' 23 5 = 0b00010#5) (middle : word.extractLsb' 4 18 = 0b101001111100000000#18) :
      Reads word (.write (word.extractLsb' 0 4))
  | immediateFlags (code : word.extractLsb' 23 2 = 0b10#2) (middle : word.extractLsb' 12 10 = 0b1010001111#10)
      (form : word.getLsbD 25 = true) : Reads word (.writeFlags (.immediate (word.extractLsb' 0 12)))
  | registerFlags (code : word.extractLsb' 23 2 = 0b10#2) (middle : word.extractLsb' 12 10 = 0b1010001111#10)
      (form : word.getLsbD 25 = false) : Reads word (.writeFlags (.register (word.extractLsb' 0 4)))
  | undefined
      (notWrite : ¬ (word.extractLsb' 23 5 = 0b00010#5 ∧ word.extractLsb' 4 18 = 0b101001111100000000#18))
      (notFlags : ¬ (word.extractLsb' 26 2 = 0b00#2 ∧ word.extractLsb' 23 2 = 0b10#2 ∧
        word.extractLsb' 12 10 = 0b1010001111#10)) : Reads word .undefined

theorem reads_ofWord (word : Word) : Reads word (ofWord word) := by
  unfold ofWord
  split
  case isTrue shape => exact .read shape.1 shape.2.1 shape.2.2
  case isFalse =>
      split
      case isTrue shape => exact .write shape.1 shape.2
      case isFalse notWrite =>
          split
          case isTrue shape =>
              cases form : word.getLsbD 25 with
              | false => exact .registerFlags shape.2.1 shape.2.2 form
              | true => exact .immediateFlags shape.2.1 shape.2.2 form
          case isFalse notFlags => exact .undefined notWrite notFlags

end PsrOp

namespace Instruction

/-- One constructor for each answer of the decoder. -/
inductive Reads (word : Word) : Instruction → Prop
  | multiply (shape : isMultiply word = true) : Reads word (.multiply (multiplyOf word))
  | multiplyLong (shape : isMultiplyLong word = true) : Reads word (.multiplyLong (multiplyLongOf word))
  | countLeadingZeros (group : word.extractLsb' 26 2 = 0b00#2) (notMultiply : isMultiply word = false)
      (notLong : isMultiplyLong word = false) (shape : isCountLeadingZeros word = true) :
      Reads word (.countLeadingZeros (word.extractLsb' 12 4) (word.extractLsb' 0 4))
  | swap (shape : isSwap word = true) : Reads word (.swap (swapOf word))
  | halfwordTransfer (group : word.extractLsb' 26 2 = 0b00#2) (notMultiply : isMultiply word = false)
      (notLong : isMultiplyLong word = false) (notCount : isCountLeadingZeros word = false)
      (notSwap : isSwap word = false) (shape : isHalfwordTransfer word = true) :
      Reads word (.halfwordTransfer (halfwordTransferOf word))
  | psrTransfer (group : word.extractLsb' 26 2 = 0b00#2) (notMultiply : isMultiply word = false)
      (notLong : isMultiplyLong word = false) (notCount : isCountLeadingZeros word = false)
      (notSwap : isSwap word = false) (notHalfword : isHalfwordTransfer word = false)
      (shape : isPsrTransfer word = true) {op : PsrOp} (reads : PsrOp.Reads word op) :
      Reads word (.psrTransfer (word.getLsbD 22) op)
  | dataProcessing (group : word.extractLsb' 26 2 = 0b00#2) : Reads word (.dataProcessing (dataProcessingOf word))
  | undefined (group : word.extractLsb' 26 2 = 0b01#2) (form : word.getLsbD 25 = true) (mark : word.getLsbD 4 = true) :
      Reads word .undefined
  | singleTransfer (group : word.extractLsb' 26 2 = 0b01#2) : Reads word (.singleTransfer (singleTransferOf word))
  | branch (group : word.extractLsb' 26 2 = 0b10#2) (form : word.getLsbD 25 = true) :
      Reads word (.branch (word.getLsbD 24) (branchBytes word))
  | blockTransfer (group : word.extractLsb' 26 2 = 0b10#2) (form : word.getLsbD 25 = false) :
      Reads word (.blockTransfer (blockTransferOf word))
  | vfp (group : word.extractLsb' 26 2 = 0b11#2) {instruction : Vfp.Instruction}
      (reads : Vfp.Reads word instruction) : Reads word (.vfp instruction)
  | coprocessor (group : word.extractLsb' 26 2 = 0b11#2) (decoded : Vfp.Instruction.decode? word = none) :
      Reads word .coprocessor

variable {word : Word}

theorem decode_arithmetic (group : word.extractLsb' 26 2 = 0b00#2) : decode word = decodeArithmetic word := by
  rw [decode, group]
  rfl

theorem decode_singleTransfer (group : word.extractLsb' 26 2 = 0b01#2) : decode word = decodeSingleTransfer word := by
  rw [decode, group]
  rfl

theorem decode_blockOrBranch (group : word.extractLsb' 26 2 = 0b10#2) : decode word = decodeBlockOrBranch word := by
  rw [decode, group]
  rfl

theorem decode_coprocessor (group : word.extractLsb' 26 2 = 0b11#2) : decode word = decodeCoprocessor word := by
  rw [decode, group]
  rfl

theorem reads_decodeArithmetic (group : word.extractLsb' 26 2 = 0b00#2) : Reads word (decodeArithmetic word) := by
  unfold decodeArithmetic
  cases multiply : isMultiply word with
  | true => exact .multiply multiply
  | false =>
      cases multiplyLong : isMultiplyLong word with
      | true => exact .multiplyLong multiplyLong
      | false =>
          cases count : isCountLeadingZeros word with
          | true => exact .countLeadingZeros group multiply multiplyLong count
          | false =>
              cases swap : isSwap word with
              | true => exact .swap swap
              | false =>
                  cases halfword : isHalfwordTransfer word with
                  | true => exact .halfwordTransfer group multiply multiplyLong count swap halfword
                  | false =>
                      cases psr : isPsrTransfer word with
                      | true =>
                          have reads := PsrOp.reads_ofWord word
                          exact .psrTransfer group multiply multiplyLong count swap halfword psr reads
                      | false => exact .dataProcessing group

theorem group_cases (word : Word) :
    word.extractLsb' 26 2 = 0b00#2 ∨ word.extractLsb' 26 2 = 0b01#2 ∨ word.extractLsb' 26 2 = 0b10#2 ∨
      word.extractLsb' 26 2 = 0b11#2 := by
  generalize word.extractLsb' 26 2 = group
  revert group
  decide

theorem reads_decode (word : Word) : Reads word (decode word) := by
  rcases group_cases word with group | group | group | group
  · rw [decode_arithmetic group]
    exact reads_decodeArithmetic group
  · rw [decode_singleTransfer group, decodeSingleTransfer]
    cases form : word.getLsbD 25 with
    | false => exact .singleTransfer group
    | true =>
        cases mark : word.getLsbD 4 with
        | false => exact .singleTransfer group
        | true => exact .undefined group form mark
  · rw [decode_blockOrBranch group, decodeBlockOrBranch]
    cases form : word.getLsbD 25 with
    | false => exact .blockTransfer group form
    | true => exact .branch group form
  · rw [decode_coprocessor group, decodeCoprocessor]
    cases decoded : Vfp.Instruction.decode? word with
    | none => exact .coprocessor group decoded
    | some instruction => exact .vfp group (Vfp.reads_of_decode? decoded)

end Instruction

end Arm32
