import Arm32.Psr
import Arm32.Settings
import Arm32.Vfp.Registers

/-! The state that instructions act on. -/

namespace Arm32

structure Machine where
  registers : Registers
  status : Psr
  memory : Memory.Image
  vfp : Vfp.Registers
  processor : Processor
  deriving DecidableEq

/-- What an instruction did to the program counter: left it at itself, or wrote it. -/
inductive Flow where
  | next | branched
  deriving DecidableEq, Repr

namespace Machine

def ofImage (processor : Processor) (memory : Memory.Image) : Machine :=
  { registers := Registers.zero, status := ⟨0⟩, memory, vfp := Vfp.Registers.zero, processor }

def read (machine : Machine) (reg : Reg) : Word := machine.registers.read reg

def write (machine : Machine) (reg : Reg) (value : Word) : Machine :=
  { machine with registers := machine.registers.write reg value }

/-- A register as an operand. The program counter reads ahead of the instruction. -/
def operand (machine : Machine) (reg : Reg) (ahead : Word) : Word :=
  if reg = Reg.pc then machine.read reg + ahead else machine.read reg

/-- The value that a store of the register puts into memory. -/
def storeOperand (machine : Machine) (reg : Reg) : Word :=
  machine.operand reg machine.processor.storePrefetch

/-- Writes a result, which is a branch when it goes to the program counter. -/
def writeResult (machine : Machine) (reg : Reg) (value : Word) : Machine × Flow :=
  (machine.write reg value, if reg = Reg.pc then .branched else .next)

def withMemory (machine : Machine) (result : Except Memory.Fault Memory.Image) : Except Refusal Machine :=
  match result with
  | .ok memory => .ok { machine with memory }
  | .error fault => .error (.access fault)

def loadByte (machine : Machine) (address : Word) : Except Refusal Byte :=
  (machine.memory.loadByte address).mapError .access

def loadHalfword (machine : Machine) (address : Word) : Except Refusal (BitVec 16) :=
  (machine.memory.loadHalfword address).mapError .access

def loadWord (machine : Machine) (address : Word) : Except Refusal Word :=
  (machine.memory.loadWord address).mapError .access

def storeByte (machine : Machine) (address : Word) (value : Byte) : Except Refusal Machine :=
  machine.withMemory (machine.memory.storeByte address value)

def storeHalfword (machine : Machine) (address : Word) (value : BitVec 16) : Except Refusal Machine :=
  machine.withMemory (machine.memory.storeHalfword address value)

def storeWord (machine : Machine) (address : Word) (value : Word) : Except Refusal Machine :=
  machine.withMemory (machine.memory.storeWord address value)

end Machine

end Arm32
