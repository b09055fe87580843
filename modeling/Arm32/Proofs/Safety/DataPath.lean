import Arm32.Execution.DataProcessing
import Arm32.Proofs.Safety.Checks

/-! The data path with checks: the barrel shifter, the adders, the flags and the long products. Shifts stay below the
width of a word, the bit that is shifted out lies inside it, and neither half sums nor products of half words overflow. -/

namespace Arm32

open Bits (checkedAdd checkedSub checkedMul)

/-! ### The barrel shifter -/

namespace Shifter

variable {kind : ShiftKind} {amount value : Word} {carry : Bool}

/-- A bit counted in one byte. -/
def checkedBit (value index : Word) : Option Bool := Bits.bit? value (index.setWidth 8).toNat

/-- A shift by at least one place and by less than the width, with the last bit that leaves the word. -/
def checkedMove (kind : ShiftKind) (amount value : Word) : Option Shifted := do
  match kind with
  | .lsl =>
    let result ← Bits.checkedShiftLeft value amount.toNat
    let last ← checkedSub 32 amount
    return { result, carry := ← checkedBit value last }
  | .lsr =>
    let result ← Bits.checkedShiftRight value amount.toNat
    let last ← checkedSub amount 1
    return { result, carry := ← checkedBit value last }
  | .asr =>
    let result ← Bits.checkedSignedShiftRight value amount.toNat
    let last ← checkedSub amount 1
    return { result, carry := ← checkedBit value last }
  | .ror =>
    let last ← checkedSub amount 1
    return { result := value.rotateRight amount.toNat, carry := ← checkedBit value last }

def moved (kind : ShiftKind) (places : Nat) (value : Word) : Shifted :=
  match kind with
  | .lsl => { result := value <<< places, carry := value.getLsbD (32 - places) }
  | .lsr => { result := value >>> places, carry := value.getLsbD (places - 1) }
  | .asr => { result := value.sshiftRight places, carry := value.getLsbD (places - 1) }
  | .ror => { result := value.rotateRight places, carry := value.getLsbD (places - 1) }

theorem checkedBit_eq {index : Word} (inside : index.toNat < 32) :
    checkedBit value index = some (value.getLsbD index.toNat) := by
  have counted : (index.setWidth 8).toNat = index.toNat := by
    rw [BitVec.toNat_setWidth]
    omega
  rw [checkedBit, counted, Bits.bit?_eq inside]

theorem checkedMove_eq (positive : 0 < amount.toNat) (small : amount.toNat < 32) :
    checkedMove kind amount value = some (moved kind amount.toNat value) := by
  have fromTop : (32 - amount).toNat = 32 - amount.toNat := BitVec.toNat_sub_of_le (by simp [BitVec.le_def]; omega)
  have fromBottom : (amount - 1).toNat = amount.toNat - 1 := BitVec.toNat_sub_of_le (by simp [BitVec.le_def]; omega)
  have top : checkedSub 32 amount = some (32 - amount) := Bits.checkedSub_eq (by simp; omega)
  have bottom : checkedSub amount 1 = some (amount - 1) := Bits.checkedSub_eq (by simp; omega)
  have topBit : checkedBit value (32 - amount) = some (value.getLsbD (32 - amount.toNat)) := by
    rw [checkedBit_eq (by omega), fromTop]
  have bottomBit : checkedBit value (amount - 1) = some (value.getLsbD (amount.toNat - 1)) := by
    rw [checkedBit_eq (by omega), fromBottom]
  cases kind with
  | lsl => simp only [checkedMove, moved, Bits.checkedShiftLeft_eq small, top, topBit, Option.bind_eq_bind,
      Option.bind_some, Option.pure_def]
  | lsr => simp only [checkedMove, moved, Bits.checkedShiftRight_eq small, bottom, bottomBit, Option.bind_eq_bind,
      Option.bind_some, Option.pure_def]
  | asr => simp only [checkedMove, moved, Bits.checkedSignedShiftRight_eq small, bottom, bottomBit,
      Option.bind_eq_bind, Option.bind_some, Option.pure_def]
  | ror => simp only [checkedMove, moved, bottom, bottomBit, Option.bind_eq_bind, Option.bind_some, Option.pure_def]

/-- A shift by an immediate amount, which has to be one of five bits. -/
def checkedByImmediate (kind : ShiftKind) (amount value : Word) (carry : Bool) : Option Shifted := do
  guard (amount.toNat < 32)
  if amount.toNat = 0 then
    match kind with
    | .lsl => return { result := value, carry }
    | .lsr => return { result := 0, carry := ← Bits.bit? value 31 }
    | .asr => return { result := ← Bits.checkedSignedShiftRight value 31, carry := ← Bits.bit? value 31 }
    | .ror =>
      let rest ← Bits.checkedShiftRight value 1
      let top ← Bits.checkedShiftLeft ((BitVec.ofBool carry).setWidth 32) 31
      return { result := rest ||| top, carry := ← Bits.bit? value 0 }
  else checkedMove kind amount value

theorem checkedByImmediate_eq {places : BitVec 5} :
    checkedByImmediate kind (places.setWidth 32) value carry = some (byImmediate kind places value carry) := by
  have below : places.toNat < 32 := places.isLt
  have same : (places.setWidth 32).toNat = places.toNat := BitVec.toNat_setWidth_of_le (by decide)
  unfold checkedByImmediate
  rw [same, guard_of_true below, Option.bind_eq_bind, Option.bind_some]
  by_cases zero : places.toNat = 0
  · cases kind <;>
      simp (disch := decide) [byImmediate, zero, Bits.bit?_eq, Bits.checkedSignedShiftRight_eq,
        Bits.checkedShiftRight_eq, Bits.checkedShiftLeft_eq, BitVec.msb_eq_getLsbD_last]
  · have moves : checkedMove kind (places.setWidth 32) value = some (moved kind places.toNat value) := by
      rw [checkedMove_eq (by omega) (by omega), same]
    simp only [zero, if_false, moves]
    cases kind <;> simp [moved, byImmediate, zero]

example : checkedByImmediate .lsl 32 1 false = none := by decide

/-- A shift by the bottom byte of a register. -/
def checkedByRegister (kind : ShiftKind) (amount value : Word) (carry : Bool) : Option Shifted := do
  let amount := amount &&& 0xff
  if amount.toNat = 0 then return { result := value, carry }
  else
    match kind with
    | .lsl =>
      if amount.toNat < 32 then checkedMove .lsl amount value
      else if amount.toNat = 32 then return { result := 0, carry := ← Bits.bit? value 0 }
      else return { result := 0, carry := false }
    | .lsr =>
      if amount.toNat < 32 then checkedMove .lsr amount value
      else if amount.toNat = 32 then return { result := 0, carry := ← Bits.bit? value 31 }
      else return { result := 0, carry := false }
    | .asr =>
      if amount.toNat < 32 then checkedMove .asr amount value
      else return { result := ← Bits.checkedSignedShiftRight value 31, carry := ← Bits.bit? value 31 }
    | .ror =>
      if amount.toNat % 32 = 0 then return { result := value, carry := ← Bits.bit? value 31 }
      else checkedMove .ror (amount % 32) value

theorem checkedByRegister_eq : checkedByRegister kind amount value carry = some (byRegister kind amount value carry) := by
  have same : (amount.extractLsb' 0 8).toNat = (amount &&& 0xff).toNat := by
    rw [BitVec.extractLsb'_toNat, BitVec.toNat_and, Nat.shiftRight_zero]
    exact (Nat.and_two_pow_sub_one_eq_mod _ 8).symm
  simp only [checkedByRegister, byRegister, same]
  generalize amount &&& 0xff = amount
  have wrapped : (amount % 32).toNat = amount.toNat % 32 := BitVec.toNat_umod
  by_cases zero : amount.toNat = 0
  · simp only [zero, if_true, Option.pure_def]
  have positive : 0 < amount.toNat := Nat.pos_of_ne_zero zero
  simp only [zero, if_false]
  cases kind with
  | lsl =>
      by_cases small : amount.toNat < 32
      · simp [small, checkedMove_eq positive small, moved]
      · by_cases full : amount.toNat = 32 <;> simp (disch := decide) [full, small, Bits.bit?_eq]
  | lsr =>
      by_cases small : amount.toNat < 32
      · simp [small, checkedMove_eq positive small, moved]
      · by_cases full : amount.toNat = 32 <;>
          simp (disch := decide) [full, small, Bits.bit?_eq, BitVec.msb_eq_getLsbD_last]
  | asr =>
      by_cases small : amount.toNat < 32
      · simp [small, checkedMove_eq positive small, moved]
      · simp (disch := decide) [small, Bits.bit?_eq, Bits.checkedSignedShiftRight_eq, BitVec.msb_eq_getLsbD_last]
  | ror =>
      by_cases multiple : amount.toNat % 32 = 0
      · simp (disch := decide) [multiple, Bits.bit?_eq, BitVec.msb_eq_getLsbD_last]
      · have moves : checkedMove .ror (amount % 32) value = some (moved .ror (amount.toNat % 32) value) := by
          rw [checkedMove_eq (by omega) (by omega), wrapped]
        simp only [multiple, if_false, moves, moved]

/-- The rotation field counts pairs of places. -/
def checkedRotated (base rotate : Word) : Option Word := do
  let places ← checkedMul rotate 2
  return base.rotateRight places.toNat

theorem checkedRotated_eq {base : Byte} {rotate : BitVec 4} :
    checkedRotated (base.setWidth 32) (rotate.setWidth 32) = some (rotated base rotate) := by
  have below : rotate.toNat < 16 := rotate.isLt
  have same : (rotate.setWidth 32).toNat = rotate.toNat := BitVec.toNat_setWidth_of_le (by decide)
  have doubled : checkedMul (rotate.setWidth 32) 2 = some (rotate.setWidth 32 * 2) :=
    Bits.checkedMul_eq (by simp [same]; omega)
  have places : (rotate.setWidth 32 * 2).toNat = 2 * rotate.toNat := by
    rw [BitVec.toNat_mul_of_lt (by simp [same]; omega), same, Nat.mul_comm]
    rfl
  rw [checkedRotated, doubled, Option.bind_eq_bind, Option.bind_some, places]
  rfl

def checkedImmediate (operand : BitVec 12) : Option Word := do
  let base ← Bits.field? (operand.setWidth 32) 0 7
  let rotate ← Bits.field? (operand.setWidth 32) 8 11
  checkedRotated base rotate

theorem checkedImmediate_eq {operand : BitVec 12} : checkedImmediate operand = some (immediate operand) := by
  have base : Bits.field? (operand.setWidth 32) 0 7 = some ((operand.extractLsb' 0 8).setWidth 32) := by
    rw [← BitVec.extractLsb'_setWidth_of_le (show 0 + 8 ≤ 32 by decide)]
    exact Bits.field?_eq 8 rfl (by decide)
  have rotate : Bits.field? (operand.setWidth 32) 8 11 = some ((operand.extractLsb' 8 4).setWidth 32) := by
    rw [← BitVec.extractLsb'_setWidth_of_le (show 8 + 4 ≤ 32 by decide)]
    exact Bits.field?_eq 4 rfl (by decide)
  rw [checkedImmediate, base, rotate, Option.bind_eq_bind, Option.bind_some, Option.bind_some]
  exact checkedRotated_eq

end Shifter

/-! ### The adders -/

namespace Adder

variable {first second : Word} {carryIn : Bool}

def checkedPair (first second : Word) : Option Carried := do
  let result := first + second
  let a ← Bits.bit? first 31
  let b ← Bits.bit? second 31
  let r ← Bits.bit? result 31
  let halves ← checkedAdd (first >>> 1) (second >>> 1)
  let half ← checkedAdd halves (first &&& second &&& 1)
  let carry ← Bits.bit? half 31
  return { result, carry, overflow := (!a && !b && r) || (a && b && !r) }

theorem halfSum_fits : (first >>> 1).toNat + (second >>> 1).toNat + (first &&& second &&& 1).toNat < 2 ^ 32 := by
  -- Both halves stay below half of the bound, and the carry is a single bit.
  have upper (value : Word) : (value >>> 1).toNat < 2147483648 := by
    rw [BitVec.toNat_ushiftRight, Nat.shiftRight_eq_div_pow]
    omega
  have bit : (first &&& second &&& 1).toNat ≤ 1 := by
    rw [BitVec.toNat_and]
    exact Nat.and_le_right
  have firstUpper := upper first
  have secondUpper := upper second
  omega

theorem checkedPair_eq : checkedPair first second = some (pair first second) := by
  have fits : (first >>> 1).toNat + (second >>> 1).toNat + (first &&& second &&& 1).toNat < 2 ^ 32 := halfSum_fits
  have halves : ((first >>> 1) + (second >>> 1)).toNat = (first >>> 1).toNat + (second >>> 1).toNat :=
    BitVec.toNat_add_of_lt (by omega)
  have half : ((first >>> 1) + (second >>> 1) + (first &&& second &&& 1)).toNat = halfSum first second := by
    rw [BitVec.toNat_add_of_lt (by omega), halves]
    rfl
  have carry : ((first >>> 1) + (second >>> 1) + (first &&& second &&& 1)).getLsbD 31 =
      (halfSum first second).testBit 31 := by rw [← half]; rfl
  have addHalves : checkedAdd (first >>> 1) (second >>> 1) = some ((first >>> 1) + (second >>> 1)) :=
    Bits.checkedAdd_eq (by omega)
  have addCarry : checkedAdd ((first >>> 1) + (second >>> 1)) (first &&& second &&& 1) =
      some ((first >>> 1) + (second >>> 1) + (first &&& second &&& 1)) :=
    Bits.checkedAdd_eq (by omega)
  have bit (value : Word) : Bits.bit? value 31 = some (value.getLsbD 31) := Bits.bit?_eq (by decide)
  simp only [checkedPair, pair, bit, addHalves, addCarry, Option.bind_eq_bind, Option.bind_some, Option.pure_def,
    carry, BitVec.msb_eq_getLsbD_last]

def Carried.checkedWithFlags (sum : Carried) : Option Sum := do
  let sign ← Bits.bit? sum.result 31
  return { result := sum.result, carry := sum.carry, overflow := sum.overflow, sign, zero := sum.result == 0 }

theorem Carried.checkedWithFlags_eq {sum : Carried} : sum.checkedWithFlags = some sum.withFlags := by
  simp (disch := decide) [checkedWithFlags, withFlags, Bits.bit?_eq, BitVec.msb_eq_getLsbD_last]

def checkedAdder (first second : Word) (carryIn : Bool) : Option Sum := do
  let sum ← checkedPair first second
  if carryIn then
    let step ← checkedPair sum.result 1
    Carried.checkedWithFlags
      { result := step.result, carry := sum.carry ^^ step.carry, overflow := sum.overflow ^^ step.overflow }
  else sum.checkedWithFlags

theorem checkedAdder_eq : checkedAdder first second carryIn = some (add first second carryIn) := by
  cases carryIn <;> simp [checkedAdder, add, checkedPair_eq, Carried.checkedWithFlags_eq]

end Adder

def AluOp.checkedCompute (op : AluOp) (first second : Word) (carry : Bool) : Option AluResult :=
  match op with
  | and | tst => some (.logical (first &&& second))
  | eor | teq => some (.logical (first ^^^ second))
  | orr => some (.logical (first ||| second))
  | mov => some (.logical second)
  | bic => some (.logical (first &&& ~~~second))
  | mvn => some (.logical (~~~second))
  | sub | cmp => .arithmetic <$> Adder.checkedAdder first (~~~second) true
  | rsb => .arithmetic <$> Adder.checkedAdder second (~~~first) true
  | add | cmn => .arithmetic <$> Adder.checkedAdder first second false
  | adc => .arithmetic <$> Adder.checkedAdder first second carry
  | sbc => .arithmetic <$> Adder.checkedAdder first (~~~second) carry
  | rsc => .arithmetic <$> Adder.checkedAdder second (~~~first) carry

theorem AluOp.checkedCompute_eq {op : AluOp} {first second : Word} {carry : Bool} :
    op.checkedCompute first second carry = some (op.compute first second carry) := by
  cases op <;> simp [checkedCompute, compute, Adder.checkedAdder_eq]

/-! ### The flags -/

namespace Psr

variable {psr : Psr}

def checkedFlag (psr : Psr) (place : Nat) : Option Bool := Bits.bit? psr.bits place

def checkedSetFlag (psr : Psr) (place : Nat) (flag : Bool) : Option Psr := do
  let bits ← Bits.setBit? psr.bits place flag
  return { bits }

def checkedSetResult (psr : Psr) (negative zero : Bool) : Option Psr := do
  let psr ← psr.checkedSetFlag 31 negative
  psr.checkedSetFlag 30 zero

def checkedSetLogical (psr : Psr) (result : Word) (carry : Bool) : Option Psr := do
  let negative ← Bits.bit? result 31
  let psr ← psr.checkedSetResult negative (result == 0)
  psr.checkedSetFlag 29 carry

def checkedSetArithmetic (psr : Psr) (sum : Sum) : Option Psr := do
  let psr ← psr.checkedSetResult sum.sign sum.zero
  let psr ← psr.checkedSetFlag 29 sum.carry
  psr.checkedSetFlag 28 sum.overflow

theorem checkedCarry_eq : psr.checkedFlag 29 = some psr.carry := Bits.bit?_eq (by decide)

theorem checkedSetResult_eq {negative zero : Bool} :
    psr.checkedSetResult negative zero = some (psr.setResult negative zero) := by
  simp (disch := decide) [checkedSetResult, checkedSetFlag, setResult, setNegative, setZero, Bits.setBit?_eq]

theorem checkedSetLogical_eq {result : Word} {carry : Bool} :
    psr.checkedSetLogical result carry = some (psr.setLogical result carry) := by
  simp (disch := decide) [checkedSetLogical, checkedSetResult_eq, checkedSetFlag, setLogical, setCarry,
    Bits.bit?_eq, Bits.setBit?_eq, BitVec.msb_eq_getLsbD_last]

theorem checkedSetArithmetic_eq {sum : Sum} : psr.checkedSetArithmetic sum = some (psr.setArithmetic sum) := by
  simp (disch := decide) [checkedSetArithmetic, checkedSetResult_eq, checkedSetFlag, setArithmetic, setCarry,
    setOverflow, Bits.setBit?_eq]

def checkedHolds (psr : Psr) (condition : Condition) : Option Bool := do
  let negative := psr.checkedFlag 31
  let zero := psr.checkedFlag 30
  let carry := psr.checkedFlag 29
  let overflow := psr.checkedFlag 28
  match condition with
  | .eq => zero
  | .ne => return !(← zero)
  | .cs => carry
  | .cc => return !(← carry)
  | .mi => negative
  | .pl => return !(← negative)
  | .vs => overflow
  | .vc => return !(← overflow)
  | .hi => return (← carry) && !(← zero)
  | .ls => return !(← carry) || (← zero)
  | .ge => return (← negative) == (← overflow)
  | .lt => return (← negative) != (← overflow)
  | .gt => return !(← zero) && (← negative) == (← overflow)
  | .le => return (← zero) || (← negative) != (← overflow)
  | .al => return true
  | .nv => return false

theorem checkedHolds_eq {condition : Condition} : psr.checkedHolds condition = some (psr.holds condition) := by
  cases condition <;>
    simp (disch := decide) [checkedHolds, holds, checkedFlag, negative, zero, carry, overflow, Bits.bit?_eq]

end Psr

def AluResult.checkedSetFlags (result : AluResult) (status : Psr) (shifterCarry : Bool) : Option Psr :=
  match result with
  | logical result => status.checkedSetLogical result shifterCarry
  | arithmetic sum => status.checkedSetArithmetic sum

theorem AluResult.checkedSetFlags_eq {result : AluResult} {status : Psr} {shifterCarry : Bool} :
    result.checkedSetFlags status shifterCarry = some (result.setFlags status shifterCarry) := by
  cases result with
  | logical result => exact Psr.checkedSetLogical_eq
  | arithmetic sum => exact Psr.checkedSetArithmetic_eq

/-! ### Long products -/

namespace Wide

variable {first second : Word}

/-- Half words are multiplied as whole words. -/
def checkedUnsignedProduct (first second : Word) : Option Wide := do
  let firstHigh := first >>> 16
  let firstLow := first &&& 0xffff
  let secondHigh := second >>> 16
  let secondLow := second &&& 0xffff
  let low ← checkedMul firstLow secondLow
  let lowHigh ← checkedMul firstLow secondHigh
  let highLow ← checkedMul firstHigh secondLow
  let high ← checkedMul firstHigh secondHigh
  let across (product : Word) : Wide := { high := product >>> 16, low := product <<< 16 }
  return add (add { high, low } (across lowHigh)) (across highLow)

theorem checkedMul_halves {first second : BitVec 16} :
    checkedMul (first.setWidth 32) (second.setWidth 32) = some (halfProduct first second) := by
  have firstSame : (first.setWidth 32).toNat = first.toNat := BitVec.toNat_setWidth_of_le (by decide)
  have secondSame : (second.setWidth 32).toNat = second.toNat := BitVec.toNat_setWidth_of_le (by decide)
  have firstBelow : first.toNat < 65536 := first.isLt
  have secondBelow : second.toNat < 65536 := second.isLt
  refine Bits.checkedMul_eq ?_
  rw [firstSame, secondSame]
  calc first.toNat * second.toNat ≤ 65535 * 65535 := Nat.mul_le_mul (by omega) (by omega)
    _ < 2 ^ 32 := by decide

theorem upperHalf_eq (value : Word) : value >>> 16 = (value.extractLsb' 16 16).setWidth 32 := by
  have below : value.toNat < 4294967296 := value.isLt
  apply BitVec.eq_of_toNat_eq
  rw [BitVec.toNat_setWidth_of_le (by decide), BitVec.extractLsb'_toNat, BitVec.toNat_ushiftRight,
    Nat.shiftRight_eq_div_pow]
  omega

theorem lowerHalf_eq (value : Word) : value &&& 0xffff = (value.extractLsb' 0 16).setWidth 32 := by
  apply BitVec.eq_of_toNat_eq
  rw [BitVec.toNat_setWidth_of_le (by decide), BitVec.extractLsb'_toNat, BitVec.toNat_and, Nat.shiftRight_zero]
  exact Nat.and_two_pow_sub_one_eq_mod _ 16

theorem checkedUnsignedProduct_eq : checkedUnsignedProduct first second = some (unsignedProduct first second) := by
  simp only [checkedUnsignedProduct, unsignedProduct, upperHalf_eq first, upperHalf_eq second, lowerHalf_eq,
    checkedMul_halves, Option.bind_eq_bind, Option.bind_some, Option.pure_def]

theorem topBit_iff (value : Word) : value >>> 31 = 1 ↔ value.msb = true := by
  have below : value.toNat < 4294967296 := value.isLt
  rw [← BitVec.toNat_inj, BitVec.toNat_ushiftRight, Nat.shiftRight_eq_div_pow, BitVec.msb_eq_decide,
    decide_eq_true_iff]
  show value.toNat / 2147483648 = 1 ↔ 2147483648 ≤ value.toNat
  omega

/-- The sign of the product is the sign bit of `first ^^^ second`. -/
def checkedSignedProduct (first second : Word) : Option Wide := do
  let magnitude (value : Word) := if value.msb then -value else value
  let product ← checkedUnsignedProduct (magnitude first) (magnitude second)
  if (first ^^^ second) >>> 31 = 1 then return negate product else return product

theorem checkedSignedProduct_eq : checkedSignedProduct first second = some (signedProduct first second) := by
  have signs : (first ^^^ second) >>> 31 = 1 ↔ (first.msb != second.msb) = true := by
    rw [topBit_iff, BitVec.msb_xor]
  simp only [checkedSignedProduct, signedProduct, checkedUnsignedProduct_eq, Option.bind_eq_bind, Option.bind_some,
    Option.pure_def, signs]
  split <;> rfl

end Wide

end Arm32
