import Mathlib.Tactic.Ring
import Arm32.Proofs.Arithmetic.Exact
import Arm32.Proofs.Safety.DataPath

/-! Products of 64 bits. Two words read as one number are added, negated and multiplied like numbers of 64 bits. The four
products of half words are those of the school method, in base 2^16, and together they never outgrow two words; of signed
numbers the magnitudes are multiplied, and the sign is put back. -/

namespace Arm32

namespace Wide

variable {first second : Word}

/-- Both words as one number. -/
def bits (value : Wide) : BitVec 64 := value.high ++ value.low

theorem toNat_bits (value : Wide) : value.bits.toNat = 0x100000000 * value.high.toNat + value.low.toNat := by
  have below := value.low.isLt
  rw [bits, BitVec.toNat_append, ← Nat.shiftLeft_add_eq_or_of_lt below, Nat.shiftLeft_eq]
  omega

theorem toNat_ofBool_setWidth (bit : Bool) : ((BitVec.ofBool bit).setWidth 32).toNat = bit.toNat := by
  cases bit <;> rfl

theorem bits_add (first second : Wide) : (add first second).bits = first.bits + second.bits := by
  have below := first.low.isLt
  have below' := second.low.isLt
  have overflows : BitVec.uaddOverflow first.low second.low =
      decide (0x100000000 ≤ first.low.toNat + second.low.toNat) := rfl
  refine BitVec.eq_of_toNat_eq ?_
  rw [BitVec.toNat_add, toNat_bits, toNat_bits, toNat_bits]
  simp only [add, BitVec.toNat_add, toNat_ofBool_setWidth, overflows]
  by_cases carries : 0x100000000 ≤ first.low.toNat + second.low.toNat
  · rw [decide_eq_true carries, Bool.toNat_true]
    omega
  · rw [decide_eq_false carries, Bool.toNat_false]
    omega

theorem bits_negate (value : Wide) : (negate value).bits = -value.bits := by
  have complement : Wide.bits { high := ~~~value.high, low := ~~~value.low } = ~~~value.bits := BitVec.not_append.symm
  rw [negate, bits_add, complement, BitVec.neg_eq_not_add]
  rfl

theorem msb_bits (value : Wide) : value.bits.msb = value.high.msb := BitVec.msb_append

theorem bits_eq_zero_iff (value : Wide) : value.bits = 0 ↔ value.high ||| value.low = 0 := by
  have number := toNat_bits value
  have zero : value.high ||| value.low = 0 ↔ value.high = 0 ∧ value.low = 0 := BitVec.or_eq_zero_iff
  rw [zero, ← BitVec.toNat_inj, ← BitVec.toNat_inj, ← BitVec.toNat_inj, number]
  simp only [BitVec.ofNat_eq_ofNat, BitVec.toNat_ofNat, Nat.zero_mod]
  omega

/-! ### Unsigned numbers -/

theorem toNat_halfProduct (first second : BitVec 16) :
    (halfProduct first second).toNat = first.toNat * second.toNat := by
  have below := first.isLt
  have below' := second.isLt
  have product : first.toNat * second.toNat ≤ 0xffff * 0xffff := Nat.mul_le_mul (by omega) (by omega)
  rw [halfProduct, BitVec.toNat_mul, BitVec.toNat_setWidth_of_le (by decide), BitVec.toNat_setWidth_of_le (by decide)]
  exact Nat.mod_eq_of_lt (by omega)

/-- A product that counts 2^16 times. -/
theorem toNat_across (product : Word) :
    (Wide.bits { high := product >>> 16, low := product <<< 16 }).toNat = 0x10000 * product.toNat := by
  have below := product.isLt
  rw [toNat_bits, BitVec.toNat_ushiftRight, BitVec.toNat_shiftLeft, Nat.shiftRight_eq_div_pow, Nat.shiftLeft_eq]
  omega

theorem toNat_eq_halves (value : Word) :
    value.toNat = 0x10000 * (value.extractLsb' 16 16).toNat + (value.extractLsb' 0 16).toNat := by
  have below := value.isLt
  rw [BitVec.extractLsb'_toNat, BitVec.extractLsb'_toNat, Nat.shiftRight_eq_div_pow, Nat.shiftRight_zero]
  omega

theorem toNat_unsignedProduct (first second : Word) :
    (unsignedProduct first second).bits.toNat = first.toNat * second.toNat := by
  have fits : first.toNat * second.toNat < 0x100000000 * 0x100000000 := Nat.mul_lt_mul'' first.isLt second.isLt
  have whole := toNat_eq_halves first
  have whole' := toNat_eq_halves second
  simp only [unsignedProduct, bits_add, BitVec.toNat_add, toNat_across]
  simp only [toNat_bits, toNat_halfProduct]
  generalize (first.extractLsb' 16 16).toNat = upper, (first.extractLsb' 0 16).toNat = lower,
    (second.extractLsb' 16 16).toNat = upper', (second.extractLsb' 0 16).toNat = lower' at whole whole' ⊢
  have expanded : first.toNat * second.toNat =
      0x100000000 * (upper * upper') + lower * lower' + 0x10000 * (lower * upper') + 0x10000 * (upper * lower') := by
    rw [whole, whole']
    ring
  omega

/-! ### Signed numbers -/

theorem toNat_magnitude (value : Word) : (if value.msb then -value else value).toNat = value.toInt.natAbs := by
  have below := value.isLt
  cases sign : value.msb with
  | false =>
      rw [if_neg Bool.false_ne_true]
      rw [Word.msb_eq, decide_eq_false_iff_not] at sign
      rw [Word.toInt_eq, if_pos (by omega), Int.natAbs_natCast]
  | true =>
      rw [Word.msb_eq, decide_eq_true_eq] at sign
      rw [if_pos rfl, BitVec.toNat_neg, Word.toInt_eq, if_neg (by omega)]
      omega

/-- Numbers of one sign have a product that is not negative, and numbers of two signs one that is not positive. -/
theorem product_sign (first second : Word) :
    if first.msb != second.msb then first.toInt * second.toInt ≤ 0 else 0 ≤ first.toInt * second.toInt := by
  have sign (value : Word) : if value.msb then value.toInt ≤ 0 else 0 ≤ value.toInt := by
    rw [BitVec.msb_eq_toInt]
    by_cases negative : value.toInt < 0
    · simpa [negative] using negative.le
    · simpa [negative] using not_lt.mp negative
  have left := sign first
  have right := sign second
  cases leftSign : first.msb <;> cases rightSign : second.msb <;> rw [leftSign] at left <;> rw [rightSign] at right
  · exact Int.mul_nonneg left right
  · exact Int.mul_nonpos_of_nonneg_of_nonpos left right
  · exact Int.mul_nonpos_of_nonpos_of_nonneg left right
  · exact Int.mul_nonneg_of_nonpos_of_nonpos left right

theorem toInt_signedProduct (first second : Word) :
    (signedProduct first second).bits.toInt = first.toInt * second.toInt := by
  have sign := product_sign first second
  have small (value : Word) : value.toInt.natAbs ≤ 0x80000000 := by
    have below := value.isLt
    rw [Word.toInt_eq]
    split <;> omega
  have fits : first.toInt.natAbs * second.toInt.natAbs ≤ 0x80000000 * 0x80000000 :=
    Nat.mul_le_mul (small first) (small second)
  have magnitude : (unsignedProduct (if first.msb then -first else first)
      (if second.msb then -second else second)).bits.toInt = (first.toInt * second.toInt).natAbs := by
    rw [BitVec.toInt_eq_toNat_of_lt, toNat_unsignedProduct, toNat_magnitude, toNat_magnitude, Int.natAbs_mul]
    rw [toNat_unsignedProduct, toNat_magnitude, toNat_magnitude]
    omega
  rw [← Int.natAbs_mul] at fits
  simp only [signedProduct]
  cases differ : first.msb != second.msb with
  | false =>
      rw [differ, if_neg Bool.false_ne_true] at sign
      rw [if_neg Bool.false_ne_true, magnitude, Int.ofNat_natAbs_of_nonneg sign]
  | true =>
      rw [differ, if_pos rfl] at sign
      rw [if_pos rfl, bits_negate, BitVec.toInt_neg, magnitude, Int.bmod_eq_of_le (by omega) (by omega),
        Int.ofNat_natAbs_of_nonpos sign, Int.neg_neg]

end Wide

/-! ### Instructions -/

namespace MultiplyLong

variable (fields : MultiplyLong)

/-- Bits as a number, with a sign or without one as the instruction has it. -/
def number {width : Nat} (bits : BitVec width) : Int :=
  if fields.op.isSigned then bits.toInt else bits.toNat

/-- The number in the two destination registers. -/
def pair (machine : Machine) : BitVec 64 := machine.read fields.rdHigh ++ machine.read fields.rdLow

/-- What the instruction computes, before it is cut down to 64 bits. -/
def total (machine : Machine) : Int :=
  let product := fields.number (machine.read fields.rm) * fields.number (machine.read fields.rs)
  if fields.op.accumulates then product + fields.number (fields.pair machine) else product

/-- The pair becomes the total, and nothing changes beside it but the sign and the zero flag. -/
structure Leaves (before after : Machine) : Prop where
  pair : fields.pair after = BitVec.ofInt 64 (fields.total before)
  kept : ∀ reg, reg ≠ fields.rdHigh → reg ≠ fields.rdLow → after.read reg = before.read reg
  unset : fields.setFlags = false → after.status = before.status
  negative : fields.setFlags = true → after.status.negative = (fields.pair after).msb
  zero : fields.setFlags = true → after.status.zero = decide (fields.pair after = 0)
  carry : after.status.carry = before.status.carry
  overflow : after.status.overflow = before.status.overflow
  flags : after.status.bits &&& ~~~Psr.resultMask = before.status.bits &&& ~~~Psr.resultMask
  others : after = { before with registers := after.registers, status := after.status }

theorem ofInt_number (bits : BitVec 64) : BitVec.ofInt 64 (fields.number bits) = bits := by
  unfold number
  split
  · exact BitVec.ofInt_toInt
  · rw [BitVec.ofInt_natCast, BitVec.ofNat_toNat, BitVec.setWidth_eq]

def product (first second : Word) : Wide :=
  if fields.op.isSigned then Wide.signedProduct first second else Wide.unsignedProduct first second

theorem bits_product (first second : Word) :
    (fields.product first second).bits = BitVec.ofInt 64 (fields.number first * fields.number second) := by
  unfold product number
  split
  · rw [← Wide.toInt_signedProduct, BitVec.ofInt_toInt]
  · rw [← Int.natCast_mul, BitVec.ofInt_natCast, ← Wide.toNat_unsignedProduct, BitVec.ofNat_toNat, BitVec.setWidth_eq]

/-- What the instruction puts into the pair. -/
def result (machine : Machine) : Wide :=
  let product := fields.product (machine.read fields.rm) (machine.read fields.rs)
  if fields.op.accumulates then Wide.add product ⟨machine.read fields.rdHigh, machine.read fields.rdLow⟩ else product

theorem bits_result (machine : Machine) : (fields.result machine).bits = BitVec.ofInt 64 (fields.total machine) := by
  simp only [result, total]
  split
  · rw [Wide.bits_add, bits_product, BitVec.ofInt_add, ofInt_number]
    rfl
  · exact fields.bits_product _ _

/-- The machine with a number in the pair, and with its flags if they are asked for. -/
def put (machine : Machine) (value : Wide) : Machine :=
  let status :=
    if fields.setFlags then machine.status.setResult value.high.msb ((value.high ||| value.low) == 0)
    else machine.status
  { (machine.write fields.rdHigh value.high).write fields.rdLow value.low with status }

variable {fields} {machine : Machine} {value : Wide}

theorem read_put (reg : Reg) :
    (fields.put machine value).read reg =
      if reg = fields.rdLow then value.low else if reg = fields.rdHigh then value.high else machine.read reg := by
  rw [← Machine.read_write, ← Machine.read_write]
  rfl

theorem pair_put (apart : fields.rdHigh ≠ fields.rdLow) : fields.pair (fields.put machine value) = value.bits := by
  rw [pair, read_put, if_neg apart, if_pos rfl, read_put, if_pos rfl, Wide.bits]

theorem status_put :
    (fields.put machine value).status =
      if fields.setFlags then machine.status.setResult value.bits.msb (decide (value.bits = 0)) else machine.status := by
  have zero : ((value.high ||| value.low) == 0) = decide (value.bits = 0) := by
    rw [Bool.beq_eq_decide_eq, decide_eq_decide]
    exact value.bits_eq_zero_iff.symm
  rw [Wide.msb_bits, ← zero]
  rfl

theorem put_leaves (apart : fields.rdHigh ≠ fields.rdLow) (total : value.bits = BitVec.ofInt 64 (fields.total machine)) :
    fields.Leaves machine (fields.put machine value) := by
  have pair : fields.pair (fields.put machine value) = value.bits := pair_put apart
  have status : (fields.put machine value).status = _ := status_put
  have flags : (fields.put machine value).status.bits &&& ~~~Psr.resultMask =
      machine.status.bits &&& ~~~Psr.resultMask := by
    rw [status]
    split
    · exact Psr.setResult_and_not
    · rfl
  refine ⟨pair.trans total, ?_, ?_, ?_, ?_, getLsbD_of_and_not flags (by decide), getLsbD_of_and_not flags (by decide),
    flags, rfl⟩
  · intro reg notHigh notLow
    rw [read_put, if_neg notLow, if_neg notHigh]
  · intro unset
    rw [status, unset, if_neg Bool.false_ne_true]
  · intro set
    rw [status, if_pos set, Psr.negative_setResult, pair]
  · intro set
    rw [status, if_pos set, Psr.zero_setResult, pair]

end MultiplyLong

namespace Machine

theorem multiplyLong_leaves (machine : Machine) (fields : MultiplyLong) :
    Ensures (fields.Leaves machine) (machine.multiplyLong fields) := by
  refine .bind_any fun _ => .require_bind fun apart => .bind_any fun _ => .pure ?_
  exact MultiplyLong.put_leaves (by simpa using apart) (fields.bits_result machine)

/-- The products of words are exact, and none of the parts that they are put together from overflows. A long multiply is
refused by its rules alone, and leaves the total in the pair. -/
theorem execute_multiplyLong :
    (∀ first second, Wide.checkedUnsignedProduct first second = some (Wide.unsignedProduct first second) ∧
        (Wide.unsignedProduct first second).bits.toNat = first.toNat * second.toNat ∧
        Wide.checkedSignedProduct first second = some (Wide.signedProduct first second) ∧
        (Wide.signedProduct first second).bits.toInt = first.toInt * second.toInt) ∧
      ∀ (machine : Machine) (word : Word) (fields : MultiplyLong), Instruction.decode word = .multiplyLong fields →
        machine.status.holds (Condition.ofWord word) = true →
        ((∃ done, machine.execute word = .ok done) ↔ fields.isForbidden = false) ∧
          ∀ after flow, machine.execute word = .ok (after, flow) → flow = .next ∧ fields.Leaves machine after := by
  constructor
  · intro first second
    exact ⟨Wide.checkedUnsignedProduct_eq, Wide.toNat_unsignedProduct first second, Wide.checkedSignedProduct_eq,
      Wide.toInt_signedProduct first second⟩
  · intro machine word fields decoded holds
    rw [execute_of_holds holds, decoded]
    constructor
    · rw [exists_ok_iff, ← Bool.not_eq_true, not_iff_not]
      exact refused_map.trans refused_multiplyLong_iff
    · intro after flow executed
      have leaves : Ensures (fun done => done.2 = .next ∧ fields.Leaves machine done.1)
          (continuing (machine.multiplyLong fields)) :=
        (machine.multiplyLong_leaves fields).map fun _ left => ⟨rfl, left⟩
      exact leaves _ executed

/-- The lowest number in registers 2 and 3, minus its square in registers 1 and 0, and a carry to be kept. -/
def belowSquare : Machine :=
  { ((withoutMemory.write 1 0xc0000000).write 2 0x80000000).write 3 0x80000000 with status := ⟨0x20000000⟩ }

/-- The square is added to the pair, of which nothing is left. -/
theorem execute_multiplyLong_square :
    ∃ after, belowSquare.execute 0xe0f10392 = .ok (after, .next) ∧
      (Instruction.multiplyLongOf 0xe0f10392).Leaves belowSquare after ∧
      [0, 1].map after.read = [0, 0] ∧ after.status = ⟨0x60000000⟩ := by
  have decoded : Instruction.decode 0xe0f10392 = .multiplyLong (Instruction.multiplyLongOf 0xe0f10392) := rfl
  have executed : belowSquare.execute 0xe0f10392 = .ok (_, .next) := rfl
  have leaves := ((execute_multiplyLong.2 belowSquare _ _ decoded rfl).2 _ _ executed).2
  exact ⟨_, executed, leaves, by decide, by decide⟩

end Machine

end Arm32
