import Arm32.Machine

/-! Reading operands through the barrel shifter. -/

namespace Arm32.Machine

/-- A shift by a register takes a cycle more, so the program counter reads one instruction further. -/
def lateAhead : Word := prefetch + instructionBytes

def shifted (machine : Machine) (operand : ShiftedRegister) : Except Refusal Shifted :=
  match operand.amount with
  | .immediate places =>
    .ok (Shifter.byImmediate operand.kind places (machine.operand operand.rm prefetch) machine.status.carry)
  | .register rs reserved => do
    require (rs != Reg.pc) .shiftByProgramCounter
    require (!reserved) .reservedShiftBit
    return Shifter.byRegister operand.kind (machine.read rs) (machine.operand operand.rm lateAhead)
      machine.status.carry

/-- An immediate leaves the carry alone, rotated or not. -/
def operand2 (machine : Machine) : Operand2 → Except Refusal Shifted
  | .immediate base rotate => .ok { result := Shifter.rotated base rotate, carry := machine.status.carry }
  | .register operand => machine.shifted operand

/-- How far ahead the first operand reads beside this second one. -/
def firstAhead : Operand2 → Word
  | .immediate _ _ => prefetch
  | .register operand => if operand.amount.isRegister then lateAhead else prefetch

end Arm32.Machine
