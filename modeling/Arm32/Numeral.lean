import Arm32.Bits
import Arm32.Text.Blank

/-! Numbers without sign as people write them: digits behind an optional plus, and for words also the
hexadecimal form behind `0x`, with blanks around either. -/

namespace Arm32.Numeral

/-- Why digits are no number. -/
inductive Flaw where
  | empty | invalidDigit | tooLarge
  deriving DecidableEq, Repr

def Flaw.message : Flaw → String
  | empty => "cannot parse integer from empty string"
  | invalidDigit => "invalid digit found in string"
  | tooLarge => "number too large to fit in target type"

inductive Radix where
  | decimal | hexadecimal
  deriving DecidableEq, Repr

namespace Radix

def base : Radix → Nat
  | decimal => 10
  | hexadecimal => 16

/-- Letters count from ten, in either case. -/
def digit? (radix : Radix) (c : Char) : Option Nat :=
  let value :=
    if '0' ≤ c ∧ c ≤ '9' then some (c.toNat - '0'.toNat)
    else if 'a' ≤ c ∧ c ≤ 'f' then some (10 + c.toNat - 'a'.toNat)
    else if 'A' ≤ c ∧ c ≤ 'F' then some (10 + c.toNat - 'A'.toNat)
    else none
  value.filter (· < radix.base)

end Radix

/-- Reads digits onto a value that stays below the limit. The first character at fault decides the flaw,
and at one that is no digit the size does not matter any more. -/
def extend (radix : Radix) (limit value : Nat) : List Char → Except Flaw Nat
  | [] => .ok value
  | c :: rest =>
    match radix.digit? c with
    | none => .error .invalidDigit
    | some digit =>
      if radix.base * value + digit < limit then extend radix limit (radix.base * value + digit) rest
      else .error .tooLarge

/-- A number below the limit. A sign alone is no number, and a minus is no digit. -/
def read (radix : Radix) (limit : Nat) : List Char → Except Flaw Nat
  | [] => .error .empty
  | ['+'] => .error .invalidDigit
  | '+' :: digits => extend radix limit 0 digits
  | digits => extend radix limit 0 digits

/-- A text that was read as a number of some radix, and what is wrong with it. -/
structure Error where
  radix : Radix
  text : String
  flaw : Flaw
  deriving DecidableEq, Repr

def Error.message (error : Error) : String :=
  match error.radix with
  | .decimal => s!"invalid number '{error.text}': {error.flaw.message}"
  | .hexadecimal => s!"invalid hex number '{error.text}': {error.flaw.message}"

/-- The radix that a number starts to be written in, and its digits. -/
def marked : List Char → Radix × List Char
  | '0' :: 'x' :: digits => (.hexadecimal, digits)
  | '0' :: 'X' :: digits => (.hexadecimal, digits)
  | digits => (.decimal, digits)

/-- A word, in either radix. The error shows the text with its blanks. -/
def readWord (text : List Char) : Except Error Word :=
  let (radix, digits) := marked (Blank.trim text)
  match read radix Word.bound digits with
  | .ok value => .ok (BitVec.ofNat 32 value)
  | .error flaw => .error { radix, text := String.ofList text, flaw }

/-- A count of 64 bits, decimal and without blanks. -/
def readCount (text : List Char) : Except Flaw Nat := read .decimal 0x10000000000000000 text

end Arm32.Numeral
