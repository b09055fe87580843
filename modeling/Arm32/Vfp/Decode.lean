import Arm32.Vfp.Instruction

/-! Reading floating-point instructions from words whose bits 27 and 26 are set. A register field is
four bits and a fifth, the lowest, that lies elsewhere in the word. -/

namespace Arm32.Vfp

def destinationField (word : Word) : Slot := word.extractLsb' 12 4 ++ word.extractLsb' 22 1
def firstField (word : Word) : Slot := word.extractLsb' 16 4 ++ word.extractLsb' 7 1
def secondField (word : Word) : Slot := word.extractLsb' 0 4 ++ word.extractLsb' 5 1

/-- The four scattered opcode bits of a data operation. -/
def opcodeField (word : Word) : BitVec 4 :=
  word.extractLsb' 23 1 ++ word.extractLsb' 20 2 ++ word.extractLsb' 6 1

def AddressMode.ofWord (word : Word) : AddressMode :=
  ofBits (word.extractLsb' 23 2 ++ word.extractLsb' 21 1)

namespace Instruction

/-- No answer for the words of this class that belong to other coprocessors or call the supervisor. -/
def decode? (word : Word) : Option Instruction := do
  let precision ← Precision.ofCoprocessor? (word.extractLsb' 8 4)
  if word.extractLsb' 24 4 = 0b1110 ∧ word.extractLsb' 4 3 = 0b001 then
    some (.registerTransfer
      { precision
        op := TransferOp.ofOpcode precision (word.extractLsb' 20 4)
        fn := firstField word
        rd := word.extractLsb' 12 4 })
  else if word.extractLsb' 24 4 = 0b1110 ∧ !word.getLsbD 4 then
    some (.dataProcessing
      { precision
        op := DataOp.ofOpcode (opcodeField word) (firstField word)
        fd := destinationField word
        fn := firstField word
        fm := secondField word })
  else if word.extractLsb' 25 3 = 0b110 then
    some (.loadStore
      { precision
        mode := AddressMode.ofWord word
        transfer := Transfer.ofBit (word.getLsbD 20)
        rn := word.extractLsb' 16 4
        fd := destinationField word
        offset := word.extractLsb' 0 8 })
  else none

end Instruction

end Arm32.Vfp
