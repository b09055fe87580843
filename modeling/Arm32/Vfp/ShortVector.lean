import Arm32.Vfp.Arithmetic

/-! Short vectors. An operation whose destination lies outside the scalar bank is repeated for as many
elements as the status register asks for. From one element to the next a register moves on inside its
bank of eight slots and wraps at the end of it. -/

namespace Arm32.Vfp

/-- The registers of one element. -/
structure Operands where
  fd : Slot
  fn : Slot
  fm : Slot
  deriving DecidableEq, Repr

/-- The slot a number of steps further in the same bank. -/
def Slot.nextInBank (slot : Slot) (step : Nat) : Slot :=
  slot.extractLsb' 3 2 ++ (slot.extractLsb' 0 3 + BitVec.ofNat 3 step)

/-- The second register field of an extension operation selects the operation, so it stays; so does a
last operand in the scalar bank, which all elements share. -/
def Operands.next (operands : Operands) (step : Nat) (extension : Bool) : Operands :=
  { fd := operands.fd.nextInBank step
    fn := if extension then operands.fn else operands.fn.nextInBank step
    fm := if operands.fm.inScalarBank then operands.fm else operands.fm.nextInBank step }

/-- The operands of all elements, in order. -/
def vectorOperands (length step : Nat) (extension : Bool) (first : Operands) : List Operands :=
  match length with
  | 0 => []
  | length + 1 => first :: vectorOperands length step extension (first.next step extension)

namespace Registers

/-- Elements of a vector operation with this destination. -/
def elements (registers : Registers) (destination : Slot) : Nat :=
  if destination.inScalarBank then 1 else registers.vectorLength

/-- Slots from one element to the next. -/
def elementStep (registers : Registers) (precision : Precision) : Nat :=
  registers.vectorStride * precision.words

/-- Applies a function to one element: destination, first and second operand give the new destination. -/
def applyElement (registers : Registers) (precision : Precision)
    (function : precision.Bits → precision.Bits → precision.Bits → precision.Bits) (operands : Operands) :
    Registers :=
  registers.put precision operands.fd
    (function (registers.get precision operands.fd) (registers.get precision operands.fn)
      (registers.get precision operands.fm))

/-- Applies a function to each element in turn, every one seeing what the ones before it wrote. -/
def applyVector (registers : Registers) (precision : Precision) (extension : Bool)
    (function : precision.Bits → precision.Bits → precision.Bits → precision.Bits) (first : Operands) :
    Registers :=
  (vectorOperands (registers.elements first.fd) (registers.elementStep precision) extension first).foldl
    (applyElement · precision function ·) registers

/-- Comparisons and conversions. Integers take a single slot whatever the precision. -/
def applyScalar (registers : Registers) (precision : Precision) (op : ScalarOp) (fd fm : Slot) : Registers :=
  let operand := registers.get precision fm
  match op with
  | .fcmp | .fcmpe => registers.setCompareFlags (compareBits (registers.get precision fd) operand)
  | .fcmpz | .fcmpez => registers.setCompareFlags (compareBits (registers.get precision fd) 0)
  | .fcvt =>
    match precision with
    | .single =>
      registers.put .double fd (Precision.Bits.ofValue (Conversion.reround Precision.double.format operand.value))
    | .double =>
      registers.put .single fd (Precision.Bits.ofValue (Conversion.reround Precision.single.format operand.value))
  | .fuito => registers.put precision fd (Conversion.ofInt (registers.read fm).toNat)
  | .fsito => registers.put precision fd (Conversion.ofInt (registers.read fm).toInt)
  | .ftoui => registers.write fd (Conversion.toUnsigned Conversion.nearest operand.value)
  | .ftouiz => registers.write fd (Conversion.toUnsigned Conversion.truncated operand.value)
  | .ftosi => registers.write fd (Conversion.toSigned Conversion.nearest operand.value)
  | .ftosiz => registers.write fd (Conversion.toSigned Conversion.truncated operand.value)

/-- A data processing instruction, which refuses only undefined operations. -/
def process (registers : Registers) (fields : DataProcessing) : Except Refusal Registers :=
  let first : Operands := { fd := fields.fd, fn := fields.fn, fm := fields.fm }
  match fields.op with
  | .undefined opcode => .error (.undefinedVfpOpcode opcode)
  | .extension (.undefined selector) => .error (.undefinedVfpExtension selector)
  | .extension (.scalar op) => .ok (registers.applyScalar fields.precision op fields.fd fields.fm)
  | .extension (.unary op) =>
    .ok (registers.applyVector fields.precision true (fun _ _ m => op.compute m) first)
  | .arithmetic op => .ok (registers.applyVector fields.precision false op.compute first)

end Registers

end Arm32.Vfp
