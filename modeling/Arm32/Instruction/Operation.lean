import Arm32.Instruction.Operand

/-! The operations that the opcode fields of core instructions select. -/

namespace Arm32

/-- Data processing operations, in the order of their codes. -/
inductive AluOp where
  | and | eor | sub | rsb | add | adc | sbc | rsc | tst | teq | cmp | cmn | orr | mov | bic | mvn
  deriving DecidableEq, Repr

inductive MultiplyOp where
  | mul | mla
  deriving DecidableEq, Repr

inductive MultiplyLongOp where
  | umull | umlal | smull | smlal
  deriving DecidableEq, Repr

/-- What a halfword or signed transfer moves. `swap` marks the encoding that the swap instruction
uses, where it turns up without being one. -/
inductive HalfwordKind where
  | swap | unsignedHalfword | signedByte | signedHalfword
  deriving DecidableEq, Repr

/-- Moves between the status register and a core register. -/
inductive PsrOp where
  | read (rd : Reg)
  | write (rm : Reg)
  | writeFlags (source : FlagSource)
  | undefined
  deriving DecidableEq, Repr

namespace AluOp

def ofCode (code : BitVec 4) : AluOp :=
  match code.toNat with
  | 0 => and
  | 1 => eor
  | 2 => sub
  | 3 => rsb
  | 4 => add
  | 5 => adc
  | 6 => sbc
  | 7 => rsc
  | 8 => tst
  | 9 => teq
  | 10 => cmp
  | 11 => cmn
  | 12 => orr
  | 13 => mov
  | 14 => bic
  | _ => mvn

def mnemonic : AluOp → String
  | and => "and"
  | eor => "eor"
  | sub => "sub"
  | rsb => "rsb"
  | add => "add"
  | adc => "adc"
  | sbc => "sbc"
  | rsc => "rsc"
  | tst => "tst"
  | teq => "teq"
  | cmp => "cmp"
  | cmn => "cmn"
  | orr => "orr"
  | mov => "mov"
  | bic => "bic"
  | mvn => "mvn"

def name : AluOp → String
  | and => "And"
  | eor => "Eor"
  | sub => "Sub"
  | rsb => "Rsb"
  | add => "Add"
  | adc => "Adc"
  | sbc => "Sbc"
  | rsc => "Rsc"
  | tst => "Tst"
  | teq => "Teq"
  | cmp => "Cmp"
  | cmn => "Cmn"
  | orr => "Orr"
  | mov => "Mov"
  | bic => "Bic"
  | mvn => "Mvn"

/-- Tests set the flags and write no register. -/
def isTest : AluOp → Bool
  | tst | teq | cmp | cmn => true
  | _ => false

/-- Moves take no first operand. -/
def isMove : AluOp → Bool
  | mov | mvn => true
  | _ => false

end AluOp

namespace MultiplyOp

def ofWord (word : Word) : MultiplyOp := if word.getLsbD 21 then mla else mul

def mnemonic : MultiplyOp → String
  | mul => "mul"
  | mla => "mla"

def name : MultiplyOp → String
  | mul => "Mul"
  | mla => "Mla"

end MultiplyOp

namespace MultiplyLongOp

def ofWord (word : Word) : MultiplyLongOp :=
  match word.getLsbD 22, word.getLsbD 21 with
  | false, false => umull
  | false, true => umlal
  | true, false => smull
  | true, true => smlal

def mnemonic : MultiplyLongOp → String
  | umull => "umull"
  | umlal => "umlal"
  | smull => "smull"
  | smlal => "smlal"

def name : MultiplyLongOp → String
  | umull => "Umull"
  | umlal => "Umlal"
  | smull => "Smull"
  | smlal => "Smlal"

def isSigned : MultiplyLongOp → Bool
  | smull | smlal => true
  | _ => false

def accumulates : MultiplyLongOp → Bool
  | umlal | smlal => true
  | _ => false

end MultiplyLongOp

namespace HalfwordKind

def ofWord (word : Word) : HalfwordKind :=
  match word.getLsbD 6, word.getLsbD 5 with
  | false, false => swap
  | false, true => unsignedHalfword
  | true, false => signedByte
  | true, true => signedHalfword

def name : HalfwordKind → String
  | swap => "Swap"
  | unsignedHalfword => "UnsignedHalfword"
  | signedByte => "SignedByte"
  | signedHalfword => "SignedHalfword"

def suffix : HalfwordKind → String
  | swap => "b"
  | unsignedHalfword => "h"
  | signedByte => "sb"
  | signedHalfword => "sh"

def isSigned : HalfwordKind → Bool
  | signedByte | signedHalfword => true
  | _ => false

def isHalfword : HalfwordKind → Bool
  | unsignedHalfword | signedHalfword => true
  | _ => false

end HalfwordKind

/-- The three transfer forms ask for fixed bits around their fields. A word of this class without
them has no meaning. -/
def PsrOp.ofWord (word : Word) : PsrOp :=
  if word.extractLsb' 23 5 = 0b00010 ∧ word.extractLsb' 16 6 = 0b001111 ∧ word.extractLsb' 0 12 = 0 then
    .read (word.extractLsb' 12 4)
  else if word.extractLsb' 23 5 = 0b00010 ∧ word.extractLsb' 4 18 = 0b101001111100000000 then
    .write (word.extractLsb' 0 4)
  else if word.extractLsb' 26 2 = 0b00 ∧ word.extractLsb' 23 2 = 0b10 ∧ word.extractLsb' 12 10 = 0b1010001111 then
    .writeFlags (if word.getLsbD 25 then .immediate (word.extractLsb' 0 12) else .register (word.extractLsb' 0 4))
  else .undefined

end Arm32
