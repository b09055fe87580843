import Arm32.Bits
import Arm32.Text.Hex

/-! What can go wrong while an image or a setting is prepared. None of these stops a program that runs. -/

namespace Arm32

inductive SetupError where
  | imageNotWordSized (size : Nat)
  | imageTooLarge (base : Word) (size : Nat)
  /-- The bytes of an image cannot even be set aside. -/
  | beyondCapacity
  /-- `limit` is one past the last address of the image that starts at `base`. -/
  | addressOutOfRange (address base : Word) (limit : Nat)
  | unknownProcessor (name : String)
  | unknownByteOrder (name : String)
  deriving DecidableEq, Repr

def SetupError.message : SetupError → String
  | .imageNotWordSized size => s!"image of {size} bytes is not a whole number of words"
  | .imageTooLarge base size => s!"image of {size} bytes does not fit the address space at {Hex.word base}"
  | .beyondCapacity => "capacity overflow"
  | .addressOutOfRange address base limit =>
    s!"address {Hex.word address} is outside the image [{Hex.word base}, 0x{Hex.padded 8 limit})"
  | .unknownProcessor name => s!"unknown processor `{name}` (expected arm7 or arm8)"
  | .unknownByteOrder name => s!"unknown endianness `{name}` (expected little or big)"

end Arm32
