import Arm32.Bits

/-! The order in which a halfword or a word lies in memory, from its lowest address up. -/

namespace Arm32

inductive ByteOrder where
  | little | big
  deriving DecidableEq, Repr

namespace ByteOrder

def halfword : ByteOrder → Byte → Byte → BitVec 16
  | little, first, second => second ++ first
  | big, first, second => first ++ second

def word : ByteOrder → Byte → Byte → Byte → Byte → Word
  | little, first, second, third, fourth => fourth ++ third ++ second ++ first
  | big, first, second, third, fourth => first ++ second ++ third ++ fourth

/-- Byte `place` of the word, counted from its lowest address. -/
def byteOfWord (order : ByteOrder) (value : Word) (place : Nat) : Byte :=
  match order with
  | little => value.extractLsb' (8 * place) 8
  | big => value.extractLsb' (8 * (3 - place)) 8

def byteOfHalfword (order : ByteOrder) (value : BitVec 16) (place : Nat) : Byte :=
  match order with
  | little => value.extractLsb' (8 * place) 8
  | big => value.extractLsb' (8 * (1 - place)) 8

end ByteOrder
end Arm32
