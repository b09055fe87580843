import Arm32.SetupError
import Arm32.Memory.ByteOrder
import Arm32.Memory.Cells

/-! A memory image: one run of bytes mapped at a base address, holding code and data alike. Typed
accesses read and write it in the image's byte order. An access that is not aligned to its size, or
that touches an unmapped address, is a fault. -/

namespace Arm32.Memory

inductive AccessSize where
  | byte | halfword | word
  deriving DecidableEq, Repr

namespace AccessSize

def bytes : AccessSize → Nat
  | byte => 1
  | halfword => 2
  | word => 4

def name : AccessSize → String
  | byte => "byte"
  | halfword => "halfword"
  | word => "word"

end AccessSize

inductive Fault where
  | misaligned (size : AccessSize) (address : Word)
  /-- `limit` is one past the last mapped address. -/
  | unmapped (address base : Word) (limit : Nat)
  deriving DecidableEq, Repr

def Fault.message : Fault → String
  | .misaligned size address => s!"{size.name} access at {Hex.word address} is not aligned"
  | .unmapped address base limit =>
    s!"address {Hex.word address} is outside the memory image [{Hex.word base}, 0x{Hex.padded 8 limit})"

structure Image where
  base : Word
  size : Nat
  cells : Cells
  order : ByteOrder
  fits : base.toNat + size ≤ Word.bound
  deriving DecidableEq

/-- Filling or reading an image word by word meets either kind of error. -/
inductive ImageError where
  | setup (error : SetupError)
  | access (fault : Fault)
  deriving DecidableEq, Repr

namespace Image

/-- One past the last mapped address. -/
def limit (image : Image) : Nat := image.base.toNat + image.size

def contains (image : Image) (address : Word) : Bool :=
  image.base.toNat ≤ address.toNat && address.toNat < image.limit

def byte (image : Image) (address : Word) : Byte := image.cells.get address

/-- The byte at an address, if it is mapped. -/
def byteAt? (image : Image) (address : Word) : Option Byte :=
  if image.contains address then some (image.byte address) else none

def setByte (image : Image) (address : Word) (value : Byte) : Image :=
  { image with cells := image.cells.set address value }

theorem byte_setByte (image : Image) (address other : Word) (value : Byte) :
    (image.setByte address value).byte other = if other = address then value else image.byte other :=
  image.cells.get_set address other value

/-- All bytes, from the lowest address up. -/
def toList (image : Image) : List Byte :=
  (List.range image.size).map fun place => image.byte (image.base + BitVec.ofNat 32 place)

/-- `bytes`, followed by zeros until the image has `size` bytes. -/
def ofBytesPadded (base : Word) (bytes : List Byte) (size : Nat) (order : ByteOrder) : Except SetupError Image :=
  let total := max size bytes.length
  if fits : base.toNat + total ≤ Word.bound then
    .ok { base, size := total, cells := (Cells.all 0).setFrom base bytes, order, fits }
  else .error (.imageTooLarge base total)

def ofBytes (base : Word) (bytes : List Byte) (order : ByteOrder) : Except SetupError Image :=
  ofBytesPadded base bytes 0 order

/-- One past the greatest size that can be asked for. -/
def capacity : Nat := 0x8000000000000000

def zeroed (base : Word) (size : Nat) (order : ByteOrder) : Except SetupError Image :=
  if size < capacity then ofBytesPadded base [] size order else .error .beyondCapacity

def unmapped (image : Image) (address : Word) : Fault :=
  .unmapped address image.base image.limit

def requireMapped (image : Image) (address : Word) : Except Fault Unit :=
  if image.contains address then .ok () else .error (image.unmapped address)

/-- Whether an access may be made. Alignment is checked first, then the first and the last byte. -/
def requireAccess (image : Image) (size : AccessSize) (address : Word) : Except Fault Unit :=
  if address.toNat % size.bytes ≠ 0 then .error (.misaligned size address)
  else do
    image.requireMapped address
    image.requireMapped (address + BitVec.ofNat 32 (size.bytes - 1))

def loadByte (image : Image) (address : Word) : Except Fault Byte := do
  image.requireAccess .byte address
  return image.byte address

def loadHalfword (image : Image) (address : Word) : Except Fault (BitVec 16) := do
  image.requireAccess .halfword address
  return image.order.halfword (image.byte address) (image.byte (address + 1))

def loadWord (image : Image) (address : Word) : Except Fault Word := do
  image.requireAccess .word address
  return image.order.word (image.byte address) (image.byte (address + 1)) (image.byte (address + 2))
    (image.byte (address + 3))

def storeByte (image : Image) (address : Word) (value : Byte) : Except Fault Image := do
  image.requireAccess .byte address
  return image.setByte address value

def storeHalfword (image : Image) (address : Word) (value : BitVec 16) : Except Fault Image := do
  image.requireAccess .halfword address
  let byteOf := image.order.byteOfHalfword value
  return (image.setByte address (byteOf 0)).setByte (address + 1) (byteOf 1)

def storeWord (image : Image) (address : Word) (value : Word) : Except Fault Image := do
  image.requireAccess .word address
  let byteOf := image.order.byteOfWord value
  return (((image.setByte address (byteOf 0)).setByte (address + 1) (byteOf 1)).setByte (address + 2)
    (byteOf 2)).setByte (address + 3) (byteOf 3)

/-- Stores words back to back from `address` up. -/
def storeWords (image : Image) (address : Word) : List Word → Except Fault Image
  | [] => .ok image
  | value :: rest => do
    let image ← image.storeWord address value
    image.storeWords (address + 4) rest

/-- Copies words into the image, all of them or none. -/
def loadWords (image : Image) (address : Word) (values : List Word) : Except ImageError Image :=
  if image.contains address && address.toNat + 4 * values.length ≤ image.limit then
    (image.storeWords address values).mapError .access
  else .error (.setup (.addressOutOfRange address image.base image.limit))

/-- An image that holds the given words and nothing else. -/
def ofWords (base : Word) (values : List Word) (order : ByteOrder) : Except ImageError Image := do
  let image ← (zeroed base (4 * values.length) order).mapError .setup
  image.loadWords base values

/-- The whole image read back as words. -/
def words (image : Image) : Except ImageError (List Word) :=
  if image.size % 4 ≠ 0 then .error (.setup (.imageNotWordSized image.size))
  else
    ((List.range (image.size / 4)).mapM fun index =>
      image.loadWord (image.base + BitVec.ofNat 32 (4 * index))).mapError .access

def withOrder (image : Image) (order : ByteOrder) : Image := { image with order }

end Image
end Arm32.Memory
