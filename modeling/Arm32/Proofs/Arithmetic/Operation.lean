import Arm32.Execution.DataProcessing
import Arm32.Proofs.Refusals

/-! A data processing instruction in two parts: what has to be permitted and read, and what follows from that without
anything to refuse. -/

namespace Arm32

namespace DataProcessing

variable (fields : DataProcessing) (machine : Machine) (second : Shifted)

/-- What the operation computes, whether or not it is kept. -/
def result : AluResult :=
  fields.op.compute (machine.operand fields.rn (Machine.firstAhead fields.operand)) second.result machine.status.carry

/-- The machine with the flags set, if they are to be. -/
def flagged : Machine :=
  if fields.setFlags then { machine with status := (fields.result machine second).setFlags machine.status second.carry }
  else machine

/-- The machine that a permitted operation leaves. -/
def done : Machine × Flow :=
  if fields.op.isTest then (fields.flagged machine second, .next)
  else (fields.flagged machine second).writeResult fields.rd (fields.result machine second).word

end DataProcessing

namespace Machine

variable {machine : Machine} {fields : DataProcessing} {second : Shifted}

theorem dataProcessing_of_operand2 (permitted : checkFlagBit fields = .ok ())
    (read : machine.operand2 fields.operand = .ok second) :
    machine.dataProcessing fields = .ok (fields.done machine second) := by
  rw [dataProcessing, permitted]
  show (machine.operand2 fields.operand >>= _) = _
  rw [read]
  show (if fields.op.isTest then _ else _) = _
  rw [DataProcessing.done]
  split <;> rfl

theorem dataProcessing_eq_ok_iff {after : Machine × Flow} :
    machine.dataProcessing fields = .ok after ↔
      checkFlagBit fields = .ok () ∧
        ∃ second, machine.operand2 fields.operand = .ok second ∧ after = fields.done machine second := by
  constructor
  · intro executed
    cases permitted : checkFlagBit fields with
    | error refusal =>
        rw [dataProcessing, permitted] at executed
        cases executed
    | ok _ =>
        cases read : machine.operand2 fields.operand with
        | error refusal =>
            rw [dataProcessing, permitted, read] at executed
            cases executed
        | ok second =>
            rw [dataProcessing_of_operand2 permitted read] at executed
            cases executed
            exact ⟨rfl, second, rfl, rfl⟩
  · rintro ⟨permitted, second, read, rfl⟩
    exact dataProcessing_of_operand2 permitted read

end Machine
end Arm32
