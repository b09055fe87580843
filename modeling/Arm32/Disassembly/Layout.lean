import Arm32.Bits
import Arm32.Condition
import Arm32.Registers
import Arm32.Text.Hex
import Arm32.Transfer

/-! How the text of an instruction is laid out: a mnemonic padded to a fixed column, then the operands. -/

namespace Arm32

inductive Layout where
  | columns (mnemonic operands : String)
  | plain (text : String)
  deriving DecidableEq, Repr

namespace Layout

/-- The column of the operands. A mnemonic that reaches it is not padded. -/
def operandColumn : Nat := 8

def padded (mnemonic : String) : String :=
  mnemonic ++ String.ofList (List.replicate (operandColumn - mnemonic.length) ' ')

def text : Layout → String
  | columns mnemonic operands => padded mnemonic ++ operands
  | plain text => text

end Layout

/-- How immediate operands are written. -/
inductive ImmediateStyle where
  | decimal | hex
  deriving DecidableEq, Repr

/-- A word as a signed decimal number, or as eight hexadecimal digits. -/
def ImmediateStyle.write (style : ImmediateStyle) (value : Word) : String :=
  match style with
  | decimal => "#" ++ toString value.toInt
  | hex => "#" ++ Hex.word value

/-- The sign in front of an offset register. -/
def Direction.sign : Direction → String
  | down => "-"
  | up => ""

/-- An offset as printed. It is counted from the instruction itself, so a base that reads ahead adds
its look-ahead. -/
def printedOffset (direction : Direction) (rn : Reg) (ahead offset : Word) : Word :=
  let offset := direction.apply 0 offset
  if rn = Reg.pc then offset + ahead else offset

end Arm32
