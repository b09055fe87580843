import Arm32.Bits

/-! Sixty-four bit results of the long multiplies, as two words. Products are put together from four
products of half words. -/

namespace Arm32

structure Wide where
  high : Word
  low : Word
  deriving DecidableEq, Repr

namespace Wide

/-- Sum modulo 2^64. Unsigned and two's complement numbers add alike. -/
def add (first second : Wide) : Wide :=
  let low := first.low + second.low
  let carry := BitVec.uaddOverflow first.low second.low
  { high := first.high + second.high + (BitVec.ofBool carry).setWidth 32, low }

/-- The product of two half words, which always fits a word. -/
def halfProduct (first second : BitVec 16) : Word :=
  first.setWidth 32 * second.setWidth 32

def unsignedProduct (first second : Word) : Wide :=
  let upper (value : Word) := value.extractLsb' 16 16
  let lower (value : Word) := value.extractLsb' 0 16
  /- A cross product counts 2^16 times, so it lies across both words. -/
  let across (product : Word) : Wide := { high := product >>> 16, low := product <<< 16 }
  let outer : Wide := { high := halfProduct (upper first) (upper second), low := halfProduct (lower first) (lower second) }
  add (add outer (across (halfProduct (lower first) (upper second))))
    (across (halfProduct (upper first) (lower second)))

def negate (value : Wide) : Wide :=
  add { high := ~~~value.high, low := ~~~value.low } { high := 0, low := 1 }

/-- The product of the magnitudes, negated when the signs differ. -/
def signedProduct (first second : Word) : Wide :=
  let magnitude (value : Word) := if value.msb then -value else value
  let product := unsignedProduct (magnitude first) (magnitude second)
  if first.msb != second.msb then negate product else product

end Wide
end Arm32
