import Arm32.Bits

/-! The bytes at all addresses, as a tree that branches on the bits of the address, the top bit first. A part that
holds one value throughout is a single node, so that memory costs what was written to it and not what it spans.
The main statement is that a byte read after a write is the one written, or else the one that was there. -/

namespace Arm32.Memory

inductive Cells where
  /-- Every byte of this part has the value. -/
  | all (value : Byte)
  | fork (low high : Cells)
  deriving DecidableEq, Repr

namespace Cells

def low : Cells → Cells
  | all value => all value
  | fork low _ => low

def high : Cells → Cells
  | all value => all value
  | fork _ high => high

/-- The byte at an address in a part that the low `depth` bits of addresses tell apart. -/
def getAt (address : Word) : Nat → Cells → Byte
  | _, all value => value
  | depth, fork low high =>
    if address.getLsbD (depth - 1) then getAt address (depth - 1) high else getAt address (depth - 1) low

def setAt (address : Word) (value : Byte) : Nat → Cells → Cells
  | 0, _ => all value
  | depth + 1, cells =>
    if address.getLsbD depth then fork cells.low (setAt address value depth cells.high)
    else fork (setAt address value depth cells.low) cells.high

theorem getAt_succ (address : Word) (depth : Nat) (cells : Cells) :
    getAt address (depth + 1) cells =
      if address.getLsbD depth then getAt address depth cells.high else getAt address depth cells.low := by
  cases cells with
  | all value => simp [getAt, low, high]
  | fork low high => rfl

theorem getAt_setAt (address other : Word) (value : Byte) (depth : Nat) (cells : Cells) :
    getAt other depth (setAt address value depth cells) =
      if ∀ bit < depth, other.getLsbD bit = address.getLsbD bit then value else getAt other depth cells := by
  induction depth generalizing cells with
  | zero => simp [setAt, getAt]
  | succ depth ih =>
    have split : (∀ bit < depth + 1, other.getLsbD bit = address.getLsbD bit) ↔
        other.getLsbD depth = address.getLsbD depth ∧ ∀ bit < depth, other.getLsbD bit = address.getLsbD bit := by
      refine ⟨fun same => ⟨same depth (by omega), fun bit below => same bit (by omega)⟩, fun same bit below => ?_⟩
      rcases Nat.lt_succ_iff_lt_or_eq.mp below with below | rfl
      · exact same.2 bit below
      · exact same.1
    rw [getAt_succ, getAt_succ, setAt]
    simp only [split]
    cases side : address.getLsbD depth <;> cases otherSide : other.getLsbD depth <;> simp [low, high, ih]

def get (cells : Cells) (address : Word) : Byte := getAt address 32 cells

def set (cells : Cells) (address : Word) (value : Byte) : Cells := setAt address value 32 cells

theorem get_set (cells : Cells) (address other : Word) (value : Byte) :
    (cells.set address value).get other = if other = address then value else cells.get other := by
  have same : (∀ bit < 32, other.getLsbD bit = address.getLsbD bit) ↔ other = address :=
    ⟨fun bits => BitVec.eq_of_getLsbD_eq bits, fun equal _ _ => by rw [equal]⟩
  rw [get, set, getAt_setAt]
  simp only [same, get]

/-- Bytes written back to back from an address up. -/
def setFrom (cells : Cells) (address : Word) : List Byte → Cells
  | [] => cells
  | value :: rest => (cells.set address value).setFrom (address + 1) rest

/-- Whether two parts are seen to be the same without looking into them. -/
def agree : Cells → Cells → Bool
  | all before, all after => before == after
  | _, _ => false

/-- Where two parts differ, in order, with the new bytes. The parts start at `address`. -/
def changesAt (address : Nat) : Nat → Cells → Cells → List (Nat × Byte)
  | 0, before, after =>
    if getAt 0 0 before = getAt 0 0 after then [] else [(address, getAt 0 0 after)]
  | depth + 1, before, after =>
    if agree before after then []
    else
      changesAt address depth before.low after.low ++
        changesAt (address + (1 <<< depth)) depth before.high after.high

def changes (before after : Cells) : List (Nat × Byte) := changesAt 0 32 before after

end Cells
end Arm32.Memory
