import Arm32.Bits

/-! The sixteen core registers. R15 is the program counter; the file holds its architectural value,
the look-ahead of operand reads is added by the reader. -/

namespace Arm32

/-- A core register number, as an instruction encodes it. -/
abbrev Reg := BitVec 4

namespace Reg

def sp : Reg := 13
def lr : Reg := 14
def pc : Reg := 15

def name (reg : Reg) : String := "r" ++ toString reg.toNat

end Reg

structure Registers where
  cells : Vector Word 16
  deriving DecidableEq, Repr

namespace Registers

def zero : Registers := { cells := Vector.replicate 16 0 }

def read (registers : Registers) (reg : Reg) : Word := registers.cells.get reg.toFin

def write (registers : Registers) (reg : Reg) (value : Word) : Registers :=
  { cells := registers.cells.set reg.toNat value reg.isLt }

/-- A register named by any number. Only the numbers up to 15 have one. -/
def number? (index : Nat) : Option Reg :=
  if bound : index < 16 then some (BitVec.ofNatLT index bound) else none

def programCounter (registers : Registers) : Word := registers.read Reg.pc

def setProgramCounter (registers : Registers) (value : Word) : Registers := registers.write Reg.pc value

/-- Moves the program counter on, modulo 2^32. -/
def advance (registers : Registers) (bytes : Word) : Registers :=
  registers.setProgramCounter (registers.programCounter + bytes)

def toList (registers : Registers) : List Word := registers.cells.toList

end Registers
end Arm32
