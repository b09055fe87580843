import Arm32.Disassembly.Basic
import Arm32.Execution.Step

/-! What a step gives notice of before it executes. Events are read off the state; they do not change it. -/

namespace Arm32

/-- Encodings that execute, but not as they read. -/
inductive Warning where
  /-- The reserved condition, at an address. -/
  | neverCondition (address : Word)
  | savedStatus
  /-- A value on its way to the identification register. -/
  | readOnlyRegister (value : Word)
  deriving DecidableEq, Repr

def Warning.message : Warning → String
  | neverCondition address =>
    s!"condition code NV at {Hex.word address} should never be used, instruction skipped"
  | savedStatus => "PSR transfer names the SPSR, user mode only has the CPSR"
  | readOnlyRegister value => s!"write of {Hex.word value} to the read only FPSID ignored"

inductive Event where
  | traced (address word : Word) (disassembly : Disassembly)
  | warned (warning : Warning)
  deriving DecidableEq, Repr

namespace Event

/-- Column of the notes in a trace, counted from the text of the instruction. -/
def noteColumn : Nat := 32

def message : Event → String
  | traced address word disassembly =>
    Hex.word address ++ ": " ++ Hex.padded 8 word.toNat ++ "  " ++ disassembly.text ++
      String.ofList (List.replicate (noteColumn - disassembly.text.length) ' ') ++ disassembly.noteLine
  | warned warning => warning.message

end Event

namespace Machine

/-- What there is to warn of about a word that was fetched. The instruction need not succeed. -/
def warning? (machine : Machine) (word : Word) : Option Warning :=
  let condition := Condition.ofWord word
  if condition = .nv then some (.neverCondition machine.registers.programCounter)
  else if machine.status.holds condition then
    match Instruction.decode word with
    | .psrTransfer true _ => some .savedStatus
    | .vfp (.registerTransfer fields) =>
      if fields.op = .fmxr ∧ fields.fn = 0 ∧ fields.rd ≠ Reg.pc then
        some (.readOnlyRegister (machine.read fields.rd))
      else none
    | _ => none
  else none

end Machine

end Arm32
