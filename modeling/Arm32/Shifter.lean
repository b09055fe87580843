import Arm32.Bits

/-! The barrel shifter that a second operand passes through. -/

namespace Arm32

inductive ShiftKind where
  | lsl | lsr | asr | ror
  deriving DecidableEq, Repr

namespace ShiftKind

def ofCode (code : BitVec 2) : ShiftKind :=
  match code.toNat with
  | 0 => lsl
  | 1 => lsr
  | 2 => asr
  | _ => ror

def mnemonic : ShiftKind → String
  | lsl => "lsl"
  | lsr => "lsr"
  | asr => "asr"
  | ror => "ror"

def name : ShiftKind → String
  | lsl => "Lsl"
  | lsr => "Lsr"
  | asr => "Asr"
  | ror => "Ror"

end ShiftKind

/-- A shifted operand and the last bit shifted out. -/
structure Shifted where
  result : Word
  carry : Bool
  deriving DecidableEq, Repr

namespace Shifter

/-- One place of the given shift: the bit that leaves the word becomes the carry. -/
def bitStep (kind : ShiftKind) (operand : Shifted) : Shifted :=
  match kind with
  | .lsl => { result := operand.result <<< 1, carry := operand.result.msb }
  | .lsr => { result := operand.result >>> 1, carry := operand.result.getLsbD 0 }
  | .asr => { result := operand.result.sshiftRight 1, carry := operand.result.getLsbD 0 }
  | .ror => { result := operand.result.rotateRight 1, carry := operand.result.getLsbD 0 }

/-- Shift by an amount encoded in the instruction. An amount of zero is the operand itself for `lsl`,
a shift by 32 for `lsr` and `asr`, and a rotation by one through the carry for `ror`. -/
def byImmediate (kind : ShiftKind) (amount : BitVec 5) (value : Word) (carry : Bool) : Shifted :=
  let places := amount.toNat
  match kind with
  | .lsl =>
    if places = 0 then { result := value, carry }
    else { result := value <<< places, carry := value.getLsbD (32 - places) }
  | .lsr =>
    if places = 0 then { result := 0, carry := value.msb }
    else { result := value >>> places, carry := value.getLsbD (places - 1) }
  | .asr =>
    if places = 0 then { result := value.sshiftRight 31, carry := value.msb }
    else { result := value.sshiftRight places, carry := value.getLsbD (places - 1) }
  | .ror =>
    if places = 0 then { result := (value >>> 1) ||| (BitVec.ofBool carry).setWidth 32 <<< 31, carry := value.getLsbD 0 }
    else { result := value.rotateRight places, carry := value.getLsbD (places - 1) }

/-- Shift by an immediate amount that has not been checked to fit its five bits. -/
def byImmediate? (kind : ShiftKind) (amount value : Word) (carry : Bool) : Option Shifted :=
  if amount.toNat < 32 then some (byImmediate kind (amount.setWidth 5) value carry) else none

/-- Shift by the bottom byte of a register. Zero leaves both operand and carry alone. -/
def byRegister (kind : ShiftKind) (amount value : Word) (carry : Bool) : Shifted :=
  let places := (amount.extractLsb' 0 8).toNat
  if places = 0 then { result := value, carry }
  else
    match kind with
    | .lsl =>
      if places < 32 then { result := value <<< places, carry := value.getLsbD (32 - places) }
      else if places = 32 then { result := 0, carry := value.getLsbD 0 }
      else { result := 0, carry := false }
    | .lsr =>
      if places < 32 then { result := value >>> places, carry := value.getLsbD (places - 1) }
      else if places = 32 then { result := 0, carry := value.msb }
      else { result := 0, carry := false }
    | .asr =>
      if places < 32 then { result := value.sshiftRight places, carry := value.getLsbD (places - 1) }
      else { result := value.sshiftRight 31, carry := value.msb }
    | .ror =>
      if places % 32 = 0 then { result := value, carry := value.msb }
      else { result := value.rotateRight (places % 32), carry := value.getLsbD (places % 32 - 1) }

/-- A byte rotated right by twice a four-bit field. -/
def rotated (base : Byte) (rotate : BitVec 4) : Word :=
  (base.setWidth 32).rotateRight (2 * rotate.toNat)

/-- The twelve-bit immediate operand: rotation field above, byte below. -/
def immediate (operand : BitVec 12) : Word :=
  rotated (operand.extractLsb' 0 8) (operand.extractLsb' 8 4)

end Shifter
end Arm32
