import Arm32.Bits

/-! The one-bit fields that load and store instructions share. -/

namespace Arm32

/-- Which way the data goes, seen from the core. -/
inductive Transfer where
  | store | load
  deriving DecidableEq, Repr

inductive Quantity where
  | word | byte
  deriving DecidableEq, Repr

/-- Whether the offset is added before or after the access. -/
inductive Indexing where
  | post | pre
  deriving DecidableEq, Repr

/-- Whether the offset is taken from the base or added to it. -/
inductive Direction where
  | down | up
  deriving DecidableEq, Repr

namespace Transfer

def ofBit (bit : Bool) : Transfer := if bit then load else store

def name : Transfer → String
  | store => "Store"
  | load => "Load"

def mnemonic : Transfer → String
  | store => "str"
  | load => "ldr"

def blockMnemonic : Transfer → String
  | store => "stm"
  | load => "ldm"

end Transfer

namespace Quantity

def ofBit (bit : Bool) : Quantity := if bit then byte else word

def name : Quantity → String
  | word => "Word"
  | byte => "Byte"

def suffix : Quantity → String
  | word => ""
  | byte => "b"

end Quantity

namespace Indexing

def ofBit (bit : Bool) : Indexing := if bit then pre else post

def name : Indexing → String
  | post => "Post"
  | pre => "Pre"

end Indexing

namespace Direction

def ofBit (bit : Bool) : Direction := if bit then up else down

def name : Direction → String
  | down => "Down"
  | up => "Up"

/-- The base moved by an amount, modulo 2^32. -/
def apply (direction : Direction) (base amount : Word) : Word :=
  match direction with
  | down => base - amount
  | up => base + amount

end Direction

/-- The addressing bits of a transfer with a base register. -/
structure Addressing where
  indexing : Indexing
  direction : Direction
  writeBack : Bool
  deriving DecidableEq, Repr

end Arm32
