import Arm32.Machine

/-! The difference between two states of one machine. -/

namespace Arm32

/-- Parts with a new value. The program counter and the status register are not among them. -/
structure Changes where
  registers : List (Reg × Word)
  /-- The longest runs of neighbouring bytes, by address. -/
  memory : List (Nat × List Byte)
  slots : List (Vfp.Slot × Word)
  fpscr : Option Word
  fpexc : Option Word
  deriving DecidableEq, Repr

namespace Changes

/-- The new value, unless it is the old one. -/
def value? (before after : Word) : Option Word := if before = after then none else some after

def keyed {key : Type} (keys : List key) (before after : key → Word) : List (key × Word) :=
  keys.filterMap fun k => (value? (before k) (after k)).map (k, ·)

/-- Joins neighbouring places. -/
def runs : List (Nat × Byte) → List (Nat × List Byte)
  | [] => []
  | (address, byte) :: rest =>
    match runs rest with
    | [] => [(address, [byte])]
    | (next, bytes) :: more =>
      if next = address + 1 then (address, byte :: bytes) :: more else (address, [byte]) :: (next, bytes) :: more

def between (before after : Machine) : Changes :=
  { registers := keyed ((List.range 15).map (BitVec.ofNat 4)) before.read after.read
    memory := runs (before.memory.cells.changes after.memory.cells)
    slots := keyed ((List.range 32).map (BitVec.ofNat 5)) before.vfp.read after.vfp.read
    fpscr := value? before.vfp.fpscr after.vfp.fpscr
    fpexc := value? before.vfp.fpexc after.vfp.fpexc }

end Changes

end Arm32
