import Arm32.Instruction.Decode
import Arm32.Proofs.Decoding.Fields

/-! The words of instructions: an encoder for everything that the decoder can answer. Bits that the decoder does not
read are filled as the layout of the class has them, with ones or zeros. -/

namespace Arm32

def ShiftKind.code : ShiftKind → BitVec 2
  | lsl => 0b00
  | lsr => 0b01
  | asr => 0b10
  | ror => 0b11

def AluOp.code : AluOp → BitVec 4
  | and => 0
  | eor => 1
  | sub => 2
  | rsb => 3
  | add => 4
  | adc => 5
  | sbc => 6
  | rsc => 7
  | tst => 8
  | teq => 9
  | cmp => 10
  | cmn => 11
  | orr => 12
  | mov => 13
  | bic => 14
  | mvn => 15

def Transfer.bit : Transfer → Bool
  | store => false
  | load => true

def Quantity.bit : Quantity → Bool
  | word => false
  | byte => true

def Indexing.bit : Indexing → Bool
  | post => false
  | pre => true

def Direction.bit : Direction → Bool
  | down => false
  | up => true

def MultiplyOp.bit : MultiplyOp → Bool
  | mul => false
  | mla => true

def ShiftedRegister.code (operand : ShiftedRegister) : BitVec 12 :=
  match operand.amount with
  | .immediate places => places ++ operand.kind.code ++ 0#1 ++ operand.rm
  | .register rs reserved => rs ++ BitVec.ofBool reserved ++ operand.kind.code ++ 1#1 ++ operand.rm

namespace Operand2

def isImmediate : Operand2 → Bool
  | immediate _ _ => true
  | register _ => false

def code : Operand2 → BitVec 12
  | immediate base rotate => rotate ++ base
  | register operand => operand.code

end Operand2

namespace TransferOffset

def isRegister : TransferOffset → Bool
  | immediate _ => false
  | register _ => true

def code : TransferOffset → BitVec 12
  | immediate offset => offset
  | register operand => operand.code

end TransferOffset

namespace FlagSource

def isImmediate : FlagSource → Bool
  | immediate _ => true
  | register _ => false

def code : FlagSource → BitVec 12
  | immediate field => field
  | register rm => 0#8 ++ rm

end FlagSource

namespace HalfwordTransfer

/-- The upper half of an immediate offset. Beside a register it is not read, but a kind that looks like a swap would be
one if it were zero. -/
def upperOffset (fields : HalfwordTransfer) : BitVec 4 :=
  match fields.offset with
  | .immediate offset => offset.extractLsb' 4 4
  | .register _ => if fields.kind = .swap then 1 else 0

def lowerOffset (fields : HalfwordTransfer) : BitVec 4 :=
  match fields.offset with
  | .immediate offset => offset.extractLsb' 0 4
  | .register rm => rm

def isImmediate (fields : HalfwordTransfer) : Bool :=
  match fields.offset with
  | .immediate _ => true
  | .register _ => false

def body (fields : HalfwordTransfer) : BitVec 28 :=
  0b000#3 ++ BitVec.ofBool fields.mode.indexing.bit ++ BitVec.ofBool fields.mode.direction.bit ++
    BitVec.ofBool fields.isImmediate ++ BitVec.ofBool fields.mode.writeBack ++ BitVec.ofBool fields.transfer.bit ++
    fields.rn ++ fields.rd ++ fields.upperOffset ++
    (1#1 ++ BitVec.ofBool fields.kind.isSigned ++ BitVec.ofBool fields.kind.isHalfword ++ 1#1 ++ fields.lowerOffset)

end HalfwordTransfer

def DataProcessing.body (fields : DataProcessing) : BitVec 28 :=
  0b00#2 ++ BitVec.ofBool fields.operand.isImmediate ++ fields.op.code ++ BitVec.ofBool fields.setFlags ++
    fields.rn ++ fields.rd ++ fields.operand.code

/-- A word of the class that is none of the moves stands for all of them. -/
def PsrOp.body (saved : Bool) : PsrOp → BitVec 28
  | read rd => 0b00010#5 ++ BitVec.ofBool saved ++ 0b001111#6 ++ rd ++ 0#12
  | write rm => 0b00010#5 ++ BitVec.ofBool saved ++ 0b101001111100000000#18 ++ rm
  | writeFlags source =>
    0b00#2 ++ BitVec.ofBool source.isImmediate ++ 0b10#2 ++ BitVec.ofBool saved ++ 0b1010001111#10 ++ source.code
  | undefined => 0b00010#5 ++ BitVec.ofBool saved ++ 0#22

def Multiply.body (fields : Multiply) : BitVec 28 :=
  0b000000#6 ++ BitVec.ofBool fields.op.bit ++ BitVec.ofBool fields.setFlags ++ fields.rd ++ fields.rn ++
    fields.rs ++ 0b1001#4 ++ fields.rm

def MultiplyLong.body (fields : MultiplyLong) : BitVec 28 :=
  0b00001#5 ++ BitVec.ofBool fields.op.isSigned ++ BitVec.ofBool fields.op.accumulates ++
    BitVec.ofBool fields.setFlags ++ fields.rdHigh ++ fields.rdLow ++ fields.rs ++ 0b1001#4 ++ fields.rm

def Swap.body (fields : Swap) : BitVec 28 :=
  0b00010#5 ++ BitVec.ofBool fields.quantity.bit ++ 0b00#2 ++ fields.rn ++ fields.rd ++ 0b00001001#8 ++ fields.rm

def SingleTransfer.body (fields : SingleTransfer) : BitVec 28 :=
  0b01#2 ++ BitVec.ofBool fields.offset.isRegister ++ BitVec.ofBool fields.mode.indexing.bit ++
    BitVec.ofBool fields.mode.direction.bit ++ BitVec.ofBool fields.quantity.bit ++
    BitVec.ofBool fields.mode.writeBack ++ BitVec.ofBool fields.transfer.bit ++ fields.rn ++ fields.rd ++
    fields.offset.code

def BlockTransfer.body (fields : BlockTransfer) : BitVec 28 :=
  0b10#2 ++ 0#1 ++ BitVec.ofBool fields.mode.indexing.bit ++ BitVec.ofBool fields.mode.direction.bit ++
    BitVec.ofBool fields.privileged ++ BitVec.ofBool fields.mode.writeBack ++ BitVec.ofBool fields.transfer.bit ++
    fields.rn ++ fields.list

namespace Vfp

def Precision.coprocessor : Precision → BitVec 4
  | single => 10
  | double => 11

def ArithmeticOp.opcode : ArithmeticOp → BitVec 4
  | fmac => 0
  | fnmac => 1
  | fmsc => 2
  | fnmsc => 3
  | fmul => 4
  | fnmul => 5
  | fadd => 6
  | fsub => 7
  | fdiv => 8

/-- The second register field, which is kept with the instruction, tells the extension operations apart. -/
def DataOp.opcode : DataOp → BitVec 4
  | arithmetic op => op.opcode
  | extension _ => 15
  | undefined opcode => opcode

/-- The pre-index, up and write-back bits, in this order from the top. -/
def AddressMode.bits : AddressMode → BitVec 3
  | unindexed => 2
  | increment => 3
  | negativeOffset => 4
  | decrement => 5
  | positiveOffset => 6
  | undefined mode => mode

def TransferOp.opcode : TransferOp → BitVec 4
  | fmsr => 0
  | fmrs => 1
  | fmxr => 14
  | fmrx => 15
  | fmdlr => 0
  | fmrdl => 1
  | fmdhr => 2
  | fmrdh => 3
  | undefined opcode => opcode

/-- The lowest bit of a register number stands apart from the others. -/
def Slot.upper (slot : Slot) : BitVec 4 := slot.extractLsb' 1 4
def Slot.lowest (slot : Slot) : BitVec 1 := slot.extractLsb' 0 1

def DataProcessing.body (fields : DataProcessing) : BitVec 28 :=
  0b1110#4 ++ fields.op.opcode.extractLsb' 3 1 ++ fields.fd.lowest ++ fields.op.opcode.extractLsb' 1 2 ++
    fields.fn.upper ++ fields.fd.upper ++ fields.precision.coprocessor ++ fields.fn.lowest ++
    fields.op.opcode.extractLsb' 0 1 ++ fields.fm.lowest ++ 0#1 ++ fields.fm.upper

def LoadStore.body (fields : LoadStore) : BitVec 28 :=
  0b110#3 ++ fields.mode.bits.extractLsb' 1 2 ++ fields.fd.lowest ++ fields.mode.bits.extractLsb' 0 1 ++
    BitVec.ofBool fields.transfer.bit ++ fields.rn ++ fields.fd.upper ++ fields.precision.coprocessor ++ fields.offset

def RegisterTransfer.body (fields : RegisterTransfer) : BitVec 28 :=
  0b1110#4 ++ fields.op.opcode ++ fields.fn.upper ++ fields.rd ++ fields.precision.coprocessor ++ fields.fn.lowest ++
    0b001#3 ++ 0#4

def Instruction.body : Instruction → BitVec 28
  | dataProcessing fields => fields.body
  | loadStore fields => fields.body
  | registerTransfer fields => fields.body

end Vfp

namespace Instruction

/-- Everything below the condition. -/
def body : Instruction → BitVec 28
  | dataProcessing fields => fields.body
  | psrTransfer saved op => op.body saved
  | multiply fields => fields.body
  | multiplyLong fields => fields.body
  | countLeadingZeros rd rm => 0b00010110#8 ++ 0b1111#4 ++ rd ++ 0b1111#4 ++ 0b0001#4 ++ rm
  | swap fields => fields.body
  | halfwordTransfer fields => fields.body
  | singleTransfer fields => fields.body
  | blockTransfer fields => fields.body
  | branch link offset => 0b10#2 ++ 1#1 ++ BitVec.ofBool link ++ offset.extractLsb' 2 24
  | undefined => 0b01#2 ++ 1#1 ++ 0#20 ++ 1#1 ++ 0#4
  | coprocessor => 0b1111#4 ++ 0#24
  | vfp instruction => instruction.body

/-- The word of an instruction, with its condition on top. -/
def encode (condition : BitVec 4) (instruction : Instruction) : Word := condition ++ instruction.body

/-- The instructions that stand for all words of a class that have no meaning. -/
def isCatchAll : Instruction → Bool
  | psrTransfer _ .undefined | undefined | coprocessor => true
  | _ => false

/-- The bits that the decoder does not read of the word of such an instruction. -/
def ignoredBits : Instruction → Word
  | countLeadingZeros _ _ => 0x000f0f00
  | halfwordTransfer fields => if fields.isImmediate then 0 else 0x00000f00
  | psrTransfer _ (.writeFlags (.register _)) => 0x00000ff0
  | vfp (.registerTransfer _) => 0x0000000f
  | _ => 0

end Instruction

/-! ### Codes of what was decoded -/

section

open Bits (ofBool_getLsbD)

theorem ShiftKind.code_ofCode (code : BitVec 2) : (ShiftKind.ofCode code).code = code := by
  revert code
  decide

theorem AluOp.code_ofCode (code : BitVec 4) : (AluOp.ofCode code).code = code := by
  revert code
  decide

theorem Transfer.bit_ofBit (bit : Bool) : (Transfer.ofBit bit).bit = bit := by cases bit <;> rfl
theorem Quantity.bit_ofBit (bit : Bool) : (Quantity.ofBit bit).bit = bit := by cases bit <;> rfl
theorem Indexing.bit_ofBit (bit : Bool) : (Indexing.ofBit bit).bit = bit := by cases bit <;> rfl
theorem Direction.bit_ofBit (bit : Bool) : (Direction.ofBit bit).bit = bit := by cases bit <;> rfl

theorem MultiplyOp.bit_ofWord (word : Word) : (MultiplyOp.ofWord word).bit = word.getLsbD 21 := by
  unfold MultiplyOp.ofWord
  cases word.getLsbD 21 <;> rfl

theorem MultiplyLongOp.bits_ofWord (word : Word) :
    (MultiplyLongOp.ofWord word).isSigned = word.getLsbD 22 ∧
      (MultiplyLongOp.ofWord word).accumulates = word.getLsbD 21 := by
  unfold MultiplyLongOp.ofWord
  cases word.getLsbD 22 <;> cases word.getLsbD 21 <;> exact ⟨rfl, rfl⟩

theorem HalfwordKind.bits_ofWord (word : Word) :
    (HalfwordKind.ofWord word).isSigned = word.getLsbD 6 ∧ (HalfwordKind.ofWord word).isHalfword = word.getLsbD 5 := by
  unfold HalfwordKind.ofWord
  cases word.getLsbD 6 <;> cases word.getLsbD 5 <;> exact ⟨rfl, rfl⟩

theorem ShiftedRegister.code_ofWord (word : Word) : (ShiftedRegister.ofWord word).code = word.extractLsb' 0 12 := by
  unfold ShiftedRegister.code ShiftedRegister.ofWord
  cases form : word.getLsbD 4 with
  | false =>
      have clear : word.extractLsb' 4 1 = 0#1 := (ofBool_getLsbD word 4).symm.trans (congrArg BitVec.ofBool form)
      simp (disch := rfl) only [Bool.false_eq_true, if_false, ShiftKind.code_ofCode, ← clear,
        BitVec.extractLsb'_append_extractLsb'_eq_extractLsb']
  | true =>
      have set : word.extractLsb' 4 1 = 1#1 := (ofBool_getLsbD word 4).symm.trans (congrArg BitVec.ofBool form)
      simp (disch := rfl) only [if_true, ShiftKind.code_ofCode, ← set, ofBool_getLsbD,
        BitVec.extractLsb'_append_extractLsb'_eq_extractLsb']

theorem Operand2.code_ofWord (word : Word) :
    (Operand2.ofWord word).isImmediate = word.getLsbD 25 ∧ (Operand2.ofWord word).code = word.extractLsb' 0 12 := by
  unfold Operand2.ofWord
  cases form : word.getLsbD 25 with
  | false => exact ⟨rfl, ShiftedRegister.code_ofWord word⟩
  | true => exact ⟨rfl, BitVec.extractLsb'_append_extractLsb'_eq_extractLsb' rfl⟩

theorem TransferOffset.code_ofWord (word : Word) :
    (TransferOffset.ofWord word).isRegister = word.getLsbD 25 ∧
      (TransferOffset.ofWord word).code = word.extractLsb' 0 12 := by
  unfold TransferOffset.ofWord
  cases form : word.getLsbD 25 with
  | false => exact ⟨rfl, rfl⟩
  | true => exact ⟨rfl, ShiftedRegister.code_ofWord word⟩

end

namespace Vfp

theorem Precision.coprocessor_of_ofCoprocessor? {number : BitVec 4} {precision : Precision}
    (known : Precision.ofCoprocessor? number = some precision) : precision.coprocessor = number := by
  unfold Precision.ofCoprocessor? at known
  split at known
  case h_1 ten =>
      cases known
      exact BitVec.eq_of_toNat_eq ten.symm
  case h_2 eleven =>
      cases known
      exact BitVec.eq_of_toNat_eq eleven.symm
  case h_3 => cases known

theorem DataOp.opcode_ofOpcode (opcode : BitVec 4) (selector : Slot) :
    (DataOp.ofOpcode opcode selector).opcode = opcode := by
  unfold DataOp.ofOpcode
  split <;> first | rfl | exact BitVec.eq_of_toNat_eq (Eq.symm ‹_›)

theorem AddressMode.bits_ofBits (bits : BitVec 3) : (AddressMode.ofBits bits).bits = bits := by
  revert bits
  decide

theorem TransferOp.opcode_ofOpcode (precision : Precision) (opcode : BitVec 4) :
    (TransferOp.ofOpcode precision opcode).opcode = opcode := by
  cases precision <;> revert opcode <;> decide

theorem Slot.upper_append (upper : BitVec 4) (lowest : BitVec 1) : Slot.upper (upper ++ lowest) = upper :=
  BitVec.extractLsb'_append_eq_left

theorem Slot.lowest_append (upper : BitVec 4) (lowest : BitVec 1) : Slot.lowest (upper ++ lowest) = lowest :=
  BitVec.extractLsb'_append_eq_right

end Vfp

end Arm32
