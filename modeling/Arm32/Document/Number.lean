/-! Numbers of JSON: an integer without needless zeros, then a fraction and an exponent if wanted. -/

namespace Arm32.Document.Number

def value (digits : List Char) : Nat := digits.foldl (fun n c => 10 * n + (c.toNat - '0'.toNat)) 0

/-- At least one digit and nothing else. -/
def areDigits (text : List Char) : Bool := !text.isEmpty && text.all Char.isDigit

/-- Digits behind a sign that may be left out. -/
def isExponent : List Char → Bool
  | '+' :: digits => areDigits digits
  | '-' :: digits => areDigits digits
  | digits => areDigits digits

/-- Nothing, or an exponent behind its letter. -/
def endsWell : List Char → Bool
  | [] => true
  | 'e' :: rest => isExponent rest
  | 'E' :: rest => isExponent rest
  | _ => false

/-- What may follow the whole part of a number that is written with more than that. -/
def isFraction : List Char → Bool
  | '.' :: rest => areDigits (rest.takeWhile Char.isDigit) && endsWell (rest.dropWhile Char.isDigit)
  | rest => endsWell rest

/-- Only zero itself starts with a zero. -/
def isWhole (digits : List Char) : Bool :=
  areDigits digits && (digits.length == 1 || digits.head? != some '0')

/-- A number without its sign, as an integer if it is written as one. -/
def unsigned? (text : List Char) : Option (Option Nat) :=
  let whole := text.takeWhile Char.isDigit
  let rest := text.dropWhile Char.isDigit
  if isWhole whole && isFraction rest then
    some (if rest.isEmpty then some (value whole) else none)
  else none

/-- Zero with a minus is no integer. -/
def negative (magnitude : Nat) : Option Int := if magnitude = 0 then none else some (-magnitude)

/-- The outer result tells whether the text is a number at all, the inner one whether an integer. -/
def read? : List Char → Option (Option Int)
  | '-' :: rest => (unsigned? rest).map (·.bind negative)
  | whole => (unsigned? whole).map (·.map Int.ofNat)

end Arm32.Document.Number
