import Arm32.Psr

/-! The four flags read back after they were set. -/

namespace Arm32

theorem Bits.getLsbD_setBit {width index : Nat} {value : BitVec width} {bit : Bool} (inside : index < width) (place : Nat) :
    (setBit value index bit).getLsbD place = if place = index then bit else value.getLsbD place := by
  by_cases same : place = index
  · subst place
    cases bit <;> simp [setBit, inside]
  · rw [if_neg same]
    by_cases within : place < width
    · cases bit <;> simp [setBit, within, same]
    · rw [BitVec.getLsbD_of_ge _ place (by omega), BitVec.getLsbD_of_ge _ place (by omega)]

namespace Psr

variable {psr : Psr} {sum : Sum} {result : Word} {isNegative isZero shifterCarry : Bool}

theorem negative_setResult : (psr.setResult isNegative isZero).negative = isNegative := by
  simp (disch := decide) only [setResult, setNegative, setZero, negative, Bits.getLsbD_setBit, reduceIte,
    Nat.reduceEqDiff]

theorem zero_setResult : (psr.setResult isNegative isZero).zero = isZero := by
  simp (disch := decide) only [setResult, setZero, zero, Bits.getLsbD_setBit, reduceIte]

theorem negative_setArithmetic : (psr.setArithmetic sum).negative = sum.sign := by
  simp (disch := decide) only [setArithmetic, setResult, setNegative, setZero, setCarry, setOverflow, negative,
    Bits.getLsbD_setBit, reduceIte, Nat.reduceEqDiff]

theorem zero_setArithmetic : (psr.setArithmetic sum).zero = sum.zero := by
  simp (disch := decide) only [setArithmetic, setResult, setNegative, setZero, setCarry, setOverflow, zero,
    Bits.getLsbD_setBit, reduceIte, Nat.reduceEqDiff]

theorem carry_setArithmetic : (psr.setArithmetic sum).carry = sum.carry := by
  simp (disch := decide) only [setArithmetic, setCarry, setOverflow, carry, Bits.getLsbD_setBit, reduceIte,
    Nat.reduceEqDiff]

theorem overflow_setArithmetic : (psr.setArithmetic sum).overflow = sum.overflow := by
  simp (disch := decide) only [setArithmetic, setOverflow, overflow, Bits.getLsbD_setBit, reduceIte]

theorem negative_setLogical : (psr.setLogical result shifterCarry).negative = result.msb := by
  simp (disch := decide) only [setLogical, setResult, setNegative, setZero, setCarry, negative, Bits.getLsbD_setBit,
    reduceIte, Nat.reduceEqDiff]

theorem zero_setLogical : (psr.setLogical result shifterCarry).zero = (result == 0) := by
  simp (disch := decide) only [setLogical, setResult, setZero, setCarry, zero, Bits.getLsbD_setBit, reduceIte,
    Nat.reduceEqDiff]

theorem carry_setLogical : (psr.setLogical result shifterCarry).carry = shifterCarry := by
  simp (disch := decide) only [setLogical, setCarry, carry, Bits.getLsbD_setBit, reduceIte]

theorem overflow_setLogical : (psr.setLogical result shifterCarry).overflow = psr.overflow := by
  simp (disch := decide) only [setLogical, setResult, setNegative, setZero, setCarry, overflow, Bits.getLsbD_setBit,
    reduceIte, Nat.reduceEqDiff]

end Psr
end Arm32
