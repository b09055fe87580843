import Arm32.Event

/-! A machine together with the choices it was made with. Tracing keeps the disassembly of the last
instruction and has no other effect. -/

namespace Arm32

structure Emulator where
  machine : Machine
  byteOrder : ByteOrder
  trace : Bool
  /-- The disassembly of the last traced instruction. -/
  last : Option Disassembly
  deriving DecidableEq

/-- How a run ended: the program counter reached zero, or the budget was used up first. -/
inductive RunOutcome where
  | terminated (executed : Nat)
  | budgetExhausted (executed : Nat)
  deriving DecidableEq, Repr

namespace RunOutcome

def executed : RunOutcome → Nat
  | terminated executed => executed
  | budgetExhausted executed => executed

def name : RunOutcome → String
  | terminated _ => "Terminated"
  | budgetExhausted _ => "BudgetExhausted"

end RunOutcome

namespace Emulator

/-- The image takes on the byte order of the settings. -/
def ofImage (settings : EmulatorSettings) (memory : Memory.Image) : Emulator :=
  { machine := Machine.ofImage settings.processor (memory.withOrder settings.byteOrder)
    byteOrder := settings.byteOrder
    trace := settings.trace
    last := none }

/-- A register is named by any number. Only the numbers up to 15 have one. -/
def setRegister (emulator : Emulator) (index : Nat) (value : Word) : Except Refusal Emulator :=
  match Registers.number? index with
  | some reg => .ok { emulator with machine := emulator.machine.write reg value }
  | none => .error (.noSuchRegister index)

/-- Only the four flags are taken from the value. -/
def setFlags (emulator : Emulator) (value : Word) : Emulator :=
  { emulator with machine := { emulator.machine with status := emulator.machine.status.setFlags value } }

def settings (emulator : Emulator) : EmulatorSettings :=
  { processor := emulator.machine.processor, byteOrder := emulator.byteOrder, trace := emulator.trace }

/-- The word that the next step is about to execute. -/
def upcoming? (emulator : Emulator) : Option Word :=
  match emulator.machine.fetch with
  | .ok word => word
  | .error _ => none

/-- The disassembly on record once the next instruction is fetched. -/
def traced (emulator : Emulator) : Option Disassembly :=
  match emulator.trace, emulator.upcoming? with
  | true, some word => some (disassemble emulator.settings.forTrace word)
  | _, _ => emulator.last

/-- One instruction and its class, none when the program has ended. -/
def step (emulator : Emulator) : Except Refusal (Emulator × Option InstructionClass) := do
  let last := emulator.traced
  let (machine, classOf) ← emulator.machine.step
  return ({ emulator with machine, last }, classOf)

/-- What the next step gives notice of, in order. -/
def events (emulator : Emulator) : List Event :=
  match emulator.upcoming? with
  | none => []
  | some word =>
    let traces :=
      if emulator.trace then
        [Event.traced emulator.machine.registers.programCounter word (disassemble emulator.settings.forTrace word)]
      else []
    traces ++ ((emulator.machine.warning? word).map Event.warned).toList

/-- The most instructions a run can count. -/
def countLimit : Nat := 0x10000000000000000

/-- Steps until the program ends or the budget is used up. The budget is looked at before each step. -/
def runFrom (budget : Option Nat) (fuel executed : Nat) (emulator : Emulator) :
    Except Refusal (Emulator × RunOutcome) :=
  match fuel with
  | 0 => .error .countOverflow
  | fuel + 1 =>
    if budget.any (· ≤ executed) then .ok (emulator, .budgetExhausted executed)
    else
      match emulator.step with
      | .error refusal => .error refusal
      | .ok (emulator, none) => .ok (emulator, .terminated executed)
      | .ok (emulator, some _) => runFrom budget fuel (executed + 1) emulator

def startAt (emulator : Emulator) (start : Word) : Emulator :=
  { emulator with
    machine := { emulator.machine with registers := emulator.machine.registers.setProgramCounter start } }

def run (emulator : Emulator) (start : Word) (budget : Option Nat) : Except Refusal (Emulator × RunOutcome) :=
  runFrom budget countLimit 0 (emulator.startAt start)

/-- The events of at most `steps` steps, in front of those already seen, latest first. -/
def eventsOf (steps : Nat) (emulator : Emulator) (seen : List Event) : List Event :=
  match steps with
  | 0 => seen
  | steps + 1 =>
    let seen := emulator.events.reverse ++ seen
    match emulator.step with
    | .ok (emulator, some _) => eventsOf steps emulator seen
    | _ => seen

/-- The events of a run, in order. -/
def runEvents (emulator : Emulator) (start : Word) (budget : Option Nat) : List Event :=
  (eventsOf (budget.getD countLimit) (emulator.startAt start) []).reverse

end Emulator

end Arm32
