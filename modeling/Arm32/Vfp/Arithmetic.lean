import Arm32.Vfp.Registers

/-! Arithmetic on the bits of singles and doubles, rounded to the nearest value, ties to even. Moves
and changes of sign act on the bits alone, so they keep every pattern, that of a NaN included. -/

namespace Arm32.Vfp

open Float.Model (Format UnpackedFloat)

def Precision.format : Precision → Format
  | single => .binary32
  | double => .binary64

/-- Bits of one register. -/
abbrev Precision.Bits (precision : Precision) : Type := BitVec precision.format.numBits

namespace Registers

/-- The register of either precision that covers a slot. -/
def get (registers : Registers) (precision : Precision) (slot : Slot) : precision.Bits :=
  match precision with
  | .single => registers.read slot
  | .double => registers.readDouble slot

def put (registers : Registers) (precision : Precision) (slot : Slot) (value : precision.Bits) : Registers :=
  match precision with
  | .single => registers.write slot value
  | .double => registers.writeDouble slot value

end Registers

namespace Precision.Bits

variable {precision : Precision}

def value (bits : precision.Bits) : UnpackedFloat := UnpackedFloat.unpack precision.format bits

def ofValue (value : UnpackedFloat) : precision.Bits := UnpackedFloat.pack precision.format value

def add (first second : precision.Bits) : precision.Bits :=
  ofValue (UnpackedFloat.add precision.format first.value second.value)

def sub (first second : precision.Bits) : precision.Bits :=
  ofValue (UnpackedFloat.sub precision.format first.value second.value)

def mul (first second : precision.Bits) : precision.Bits :=
  ofValue (UnpackedFloat.mul precision.format first.value second.value)

def div (first second : precision.Bits) : precision.Bits :=
  ofValue (UnpackedFloat.div precision.format first.value second.value)

def sqrt (bits : precision.Bits) : precision.Bits :=
  ofValue (UnpackedFloat.sqrt precision.format bits.value)

def signBit : precision.Bits := BitVec.twoPow _ (precision.format.numBits - 1)

def negate (bits : precision.Bits) : precision.Bits := bits ^^^ signBit

def absolute (bits : precision.Bits) : precision.Bits := bits &&& ~~~signBit

def isNaN (bits : precision.Bits) : Bool := bits.value.isNaN

end Precision.Bits

/-- Products are rounded before they are added to. -/
def ArithmeticOp.compute {precision : Precision} (op : ArithmeticOp) (d n m : precision.Bits) : precision.Bits :=
  match op with
  | fmac => d.add (n.mul m)
  | fnmac => d.sub (n.mul m)
  | fmsc => d.negate.add (n.mul m)
  | fnmsc => d.negate.sub (n.mul m)
  | fmul => n.mul m
  | fnmul => (n.mul m).negate
  | fadd => n.add m
  | fsub => n.sub m
  | fdiv => n.div m

def UnaryOp.compute {precision : Precision} (op : UnaryOp) (m : precision.Bits) : precision.Bits :=
  match op with
  | fcpy => m
  | fabs => m.absolute
  | fneg => m.negate
  | fsqrt => m.sqrt

/-- Negative, zero, carry and overflow flags of a comparison, in the top four bits. -/
def comparisonFlags : Option Ordering → Word
  | some .lt => 0x80000000
  | some .eq => 0x60000000
  | some .gt => 0x20000000
  | none => 0x30000000

def compareBits {precision : Precision} (first second : precision.Bits) : Word :=
  comparisonFlags (UnpackedFloat.compare first.value second.value)

namespace Conversion

/-- The nearest value of another format. Values out of range become infinite when they are packed. -/
def reround (format : Format) : UnpackedFloat → UnpackedFloat
  | .finite sign mantissa exponent _ => UnpackedFloat.round format sign mantissa exponent
  | value => value

def ofInt {precision : Precision} (number : Int) : precision.Bits :=
  Precision.Bits.ofValue (UnpackedFloat.ofInt precision.format number)

/-- The integer part of `mantissa * 2 ^ exponent`. -/
def truncated (mantissa : Nat) (exponent : Int) : Nat :=
  if exponent < 0 then mantissa >>> exponent.natAbs else mantissa <<< exponent.natAbs

/-- The nearest integer. Halves go away from zero. -/
def nearest (mantissa : Nat) (exponent : Int) : Nat :=
  truncated (2 * mantissa + (if exponent < 0 then 1 <<< exponent.natAbs else 0)) (exponent - 1)

def clamp (least most value : Int) : Int := max least (min most value)

/-- The integer for a value, brought into range. A NaN becomes zero. -/
def toInt (integer : Nat → Int → Nat) (least most : Int) : UnpackedFloat → Int
  | .notANumber => 0
  | .infinity .positive => most
  | .infinity .negative => least
  | .zero _ => 0
  | .finite .positive mantissa exponent _ => clamp least most (integer mantissa exponent)
  | .finite .negative mantissa exponent _ => clamp least most (-(integer mantissa exponent : Int))

def toUnsigned (integer : Nat → Int → Nat) (value : UnpackedFloat) : Word :=
  BitVec.ofInt 32 (toInt integer 0 0xffffffff value)

def toSigned (integer : Nat → Int → Nat) (value : UnpackedFloat) : Word :=
  BitVec.ofInt 32 (toInt integer (-0x80000000) 0x7fffffff value)

end Conversion

end Arm32.Vfp
