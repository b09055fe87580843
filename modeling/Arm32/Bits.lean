/-! Bits and bit fields of a word of any width. A field is named by its first and last bit, both
included and counted from the least significant end. The functions ending in `?` have no answer
when the bits they are asked about lie outside the word. -/

namespace Arm32

abbrev Word := BitVec 32
abbrev Byte := BitVec 8

/-- One past the greatest word. Addresses are words, so it is where they end too. -/
abbrev Word.bound : Nat := 0x100000000

namespace Bits

variable {width : Nat}

/-- Writes one bit and keeps every other. -/
def setBit (value : BitVec width) (index : Nat) (bit : Bool) : BitVec width :=
  if bit then value ||| BitVec.twoPow width index else value &&& ~~~BitVec.twoPow width index

def bit? (value : BitVec width) (index : Nat) : Option Bool :=
  if index < width then some (value.getLsbD index) else none

def setBit? (value : BitVec width) (index : Nat) (bit : Bool) : Option (BitVec width) :=
  if index < width then some (setBit value index bit) else none

/-- Number of bits from `first` to `last`, none when they are in the wrong order. -/
def span (first last : Nat) : Nat := last + 1 - first

/-- The field moved down to bit 0. An empty field is zero, and its first bit may be one past the top. -/
def field? (value : BitVec width) (first last : Nat) : Option (BitVec width) :=
  if first + span first last ≤ width then
    some ((value.extractLsb' first (span first last)).setWidth width)
  else none

/-- Whether all of the listed bits are set. The first clear bit settles the answer, so a bit outside
the word only matters when every bit before it is set. -/
def allSetOf? (value : BitVec width) : List Nat → Option Bool
  | [] => some true
  | index :: rest =>
    match bit? value index with
    | none => none
    | some false => some false
    | some true => allSetOf? value rest

def allSet? (value : BitVec width) (first last : Nat) : Option Bool :=
  allSetOf? value (List.range' first (span first last))

/-- Reads the low `count` bits as a two's complement number and widens it to the whole word. -/
def signExtended? (value : BitVec width) (count : Nat) : Option (BitVec width) :=
  if 0 < count ∧ count ≤ width then some ((value.setWidth count).signExtend width) else none

end Bits
end Arm32
