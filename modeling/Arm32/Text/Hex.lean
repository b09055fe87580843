/-! Hexadecimal text in lower case. -/

namespace Arm32.Hex

/-- The digits alone, as few as the number needs and at least one. -/
def digits (value : Nat) : List Char := Nat.toDigits 16 value

/-- At least `width` digits, zeros in front. -/
def padded (width value : Nat) : String :=
  String.ofList (List.replicate (width - (digits value).length) '0' ++ digits value)

/-- A word with its prefix, always eight digits. -/
def word (value : BitVec 32) : String := "0x" ++ padded 8 value.toNat

end Arm32.Hex
