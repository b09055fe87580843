import Arm32.Registers
import Arm32.Transfer

/-! Instructions of the floating-point coprocessors 10 (single precision) and 11 (double precision).
Registers are numbered by 32-bit slots: single `n` is slot `n`, double `n` is the slots `2n` and
`2n + 1` and may be named by either. -/

namespace Arm32.Vfp

abbrev Slot := BitVec 5

inductive Precision where
  | single | double
  deriving DecidableEq, Repr

namespace Precision

def ofCoprocessor? (number : BitVec 4) : Option Precision :=
  match number.toNat with
  | 10 => some single
  | 11 => some double
  | _ => none

def suffix : Precision → String
  | single => "s"
  | double => "d"

def name : Precision → String
  | single => "Single"
  | double => "Double"

/-- Slots, and so words, that one register takes. -/
def words : Precision → Nat
  | single => 1
  | double => 2

end Precision

/-- Operations on two or three registers of one precision. -/
inductive ArithmeticOp where
  | fmac | fnmac | fmsc | fnmsc | fmul | fnmul | fadd | fsub | fdiv
  deriving DecidableEq, Repr

/-- Operations on one register that take part in short vectors. -/
inductive UnaryOp where
  | fcpy | fabs | fneg | fsqrt
  deriving DecidableEq, Repr

/-- Comparisons and conversions. These always act on one element. -/
inductive ScalarOp where
  | fcmp | fcmpe | fcmpz | fcmpez
  | fcvt
  | fuito | fsito
  | ftoui | ftouiz | ftosi | ftosiz
  deriving DecidableEq, Repr

/-- The operations that opcode 15 selects by its second register field. -/
inductive ExtensionOp where
  | unary (op : UnaryOp)
  | scalar (op : ScalarOp)
  | undefined (selector : Nat)
  deriving DecidableEq, Repr

inductive DataOp where
  | arithmetic (op : ArithmeticOp)
  | extension (op : ExtensionOp)
  | undefined (opcode : BitVec 4)
  deriving DecidableEq, Repr

inductive AddressMode where
  /-- A register list from the base up, base kept. -/
  | unindexed
  /-- A register list from the base up, base moved past it. -/
  | increment
  /-- A register list below the base, base moved down to it. -/
  | decrement
  | positiveOffset
  | negativeOffset
  | undefined (mode : BitVec 3)
  deriving DecidableEq, Repr

/-- Moves between a core register and a slot or system register. -/
inductive TransferOp where
  | fmsr | fmrs | fmxr | fmrx | fmdlr | fmrdl | fmdhr | fmrdh
  | undefined (opcode : BitVec 4)
  deriving DecidableEq, Repr

inductive SystemRegister where
  | fpsid | fpscr | fpexc
  | unknown (index : Nat)
  deriving DecidableEq, Repr

structure DataProcessing where
  precision : Precision
  op : DataOp
  fd : Slot
  fn : Slot
  fm : Slot
  deriving DecidableEq, Repr

structure LoadStore where
  precision : Precision
  mode : AddressMode
  transfer : Transfer
  rn : Reg
  fd : Slot
  /-- Counted in words. -/
  offset : BitVec 8
  deriving DecidableEq, Repr

structure RegisterTransfer where
  precision : Precision
  op : TransferOp
  fn : Slot
  rd : Reg
  deriving DecidableEq, Repr

inductive Instruction where
  | dataProcessing (fields : DataProcessing)
  | loadStore (fields : LoadStore)
  | registerTransfer (fields : RegisterTransfer)
  deriving DecidableEq, Repr

namespace ArithmeticOp

def mnemonic : ArithmeticOp → String
  | fmac => "fmac"
  | fnmac => "fnmac"
  | fmsc => "fmsc"
  | fnmsc => "fnmsc"
  | fmul => "fmul"
  | fnmul => "fnmul"
  | fadd => "fadd"
  | fsub => "fsub"
  | fdiv => "fdiv"

end ArithmeticOp

namespace UnaryOp

def mnemonic : UnaryOp → String
  | fcpy => "fcpy"
  | fabs => "fabs"
  | fneg => "fneg"
  | fsqrt => "fsqrt"

end UnaryOp

namespace ScalarOp

def mnemonic : ScalarOp → String
  | fcmp => "fcmp"
  | fcmpe => "fcmpe"
  | fcmpz => "fcmpz"
  | fcmpez => "fcmpez"
  | fcvt => "fcvt"
  | fuito => "fuito"
  | fsito => "fsito"
  | ftoui => "ftoui"
  | ftouiz => "ftouiz"
  | ftosi => "ftosi"
  | ftosiz => "ftosiz"

def isCompare : ScalarOp → Bool
  | fcmp | fcmpe | fcmpz | fcmpez => true
  | _ => false

end ScalarOp

namespace ExtensionOp

def ofSelector : Nat → ExtensionOp
  | 0 => unary .fcpy
  | 1 => unary .fabs
  | 2 => unary .fneg
  | 3 => unary .fsqrt
  | 8 => scalar .fcmp
  | 9 => scalar .fcmpe
  | 10 => scalar .fcmpz
  | 11 => scalar .fcmpez
  | 15 => scalar .fcvt
  | 16 => scalar .fuito
  | 17 => scalar .fsito
  | 24 => scalar .ftoui
  | 25 => scalar .ftouiz
  | 26 => scalar .ftosi
  | 27 => scalar .ftosiz
  | other => undefined other

def mnemonic : ExtensionOp → String
  | unary op => op.mnemonic
  | scalar op => op.mnemonic
  | undefined _ => "fext?"

def isVector : ExtensionOp → Bool
  | unary _ => true
  | _ => false

def isCompare : ExtensionOp → Bool
  | scalar op => op.isCompare
  | _ => false

end ExtensionOp

namespace DataOp

def ofOpcode (opcode : BitVec 4) (selector : Slot) : DataOp :=
  match opcode.toNat with
  | 0 => arithmetic .fmac
  | 1 => arithmetic .fnmac
  | 2 => arithmetic .fmsc
  | 3 => arithmetic .fnmsc
  | 4 => arithmetic .fmul
  | 5 => arithmetic .fnmul
  | 6 => arithmetic .fadd
  | 7 => arithmetic .fsub
  | 8 => arithmetic .fdiv
  | 15 => extension (ExtensionOp.ofSelector selector.toNat)
  | _ => undefined opcode

def mnemonic : DataOp → String
  | arithmetic op => op.mnemonic
  | extension op => op.mnemonic
  | undefined _ => "fop?"

end DataOp

namespace AddressMode

/-- The pre-index, up and write-back bits, in this order from the top. -/
def ofBits (bits : BitVec 3) : AddressMode :=
  match bits.toNat with
  | 2 => unindexed
  | 3 => increment
  | 4 => negativeOffset
  | 5 => decrement
  | 6 => positiveOffset
  | _ => undefined bits

def isMultiple : AddressMode → Bool
  | unindexed | increment | decrement => true
  | _ => false

end AddressMode

namespace TransferOp

def ofOpcode (precision : Precision) (opcode : BitVec 4) : TransferOp :=
  match precision, opcode.toNat with
  | .single, 0 => fmsr
  | .single, 1 => fmrs
  | .single, 14 => fmxr
  | .single, 15 => fmrx
  | .double, 0 => fmdlr
  | .double, 1 => fmrdl
  | .double, 2 => fmdhr
  | .double, 3 => fmrdh
  | _, _ => undefined opcode

def mnemonic : TransferOp → String
  | fmsr => "fmsr"
  | fmrs => "fmrs"
  | fmxr => "fmxr"
  | fmrx => "fmrx"
  | fmdlr => "fmdlr"
  | fmrdl => "fmrdl"
  | fmdhr => "fmdhr"
  | fmrdh => "fmrdh"
  | undefined _ => "fmov?"

end TransferOp

namespace SystemRegister

def ofIndex : Nat → SystemRegister
  | 0 => fpsid
  | 2 => fpscr
  | 16 => fpexc
  | other => unknown other

def mnemonic : SystemRegister → String
  | fpsid => "fpsid"
  | fpscr => "fpscr"
  | fpexc => "fpexc"
  | unknown index => s!"fpsys{index}"

end SystemRegister

end Arm32.Vfp
