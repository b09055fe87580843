import Arm32.Disassembly.Layout
import Arm32.Disassembly.Note
import Arm32.Instruction.Basic

/-! Text and notes of operands. -/

namespace Arm32

namespace ShiftedRegister

def render (style : ImmediateStyle) (operand : ShiftedRegister) : String :=
  operand.rm.name ++
    match operand.amount with
    | .register rs _ => ", " ++ operand.kind.mnemonic ++ " " ++ rs.name
    | .immediate places =>
      if places = 0 then
        match operand.kind with
        | .lsl => ""
        | .ror => ", rrx"
        | kind => ", " ++ kind.mnemonic ++ " " ++ style.write 32
      else ", " ++ operand.kind.mnemonic ++ " " ++ style.write (places.setWidth 32)

def notes (operand : ShiftedRegister) : List Note :=
  match operand.amount with
  | .immediate _ => []
  | .register rs reserved =>
    Note.when (rs == Reg.pc) .shiftByProgramCounter ++ Note.when reserved .reservedShiftBit

end ShiftedRegister

namespace Operand2

def render (style : ImmediateStyle) : Operand2 → String
  | immediate base rotate => style.write (Shifter.rotated base rotate)
  | register operand => operand.render style

def notes : Operand2 → List Note
  | immediate _ _ => []
  | register operand => operand.notes

end Operand2

/-- A base register and an immediate offset, which is left out when it is zero. -/
def Addressing.renderImmediate (mode : Addressing) (style : ImmediateStyle) (rn : Reg) (offset : Word) : String :=
  match mode.indexing with
  | .pre =>
    if offset = 0 then "[" ++ rn.name ++ "]"
    else "[" ++ rn.name ++ ", " ++ style.write offset ++ "]" ++ (if mode.writeBack then "!" else "")
  | .post =>
    if offset = 0 then "[" ++ rn.name ++ "]" else "[" ++ rn.name ++ "], " ++ style.write offset

/-- A base register and an offset register, whose text is given. -/
def Addressing.renderRegister (mode : Addressing) (rn : Reg) (offset : String) : String :=
  match mode.indexing with
  | .pre => "[" ++ rn.name ++ ", " ++ mode.direction.sign ++ offset ++ "]" ++ (if mode.writeBack then "!" else "")
  | .post => "[" ++ rn.name ++ "], " ++ mode.direction.sign ++ offset

/-- A note on writing back the program counter is made only where the offset is printed. -/
def Addressing.immediateNotes (mode : Addressing) (rn : Reg) (offset : Word) : List Note :=
  Note.when (mode.indexing == .pre && offset != 0 && mode.writeBack && rn == Reg.pc) .writeBackToProgramCounter

/-- The reserved condition is remarked on wherever it is printed. -/
def Condition.notes (condition : Condition) : List Note :=
  Note.when (condition == .nv) .neverCondition

end Arm32
