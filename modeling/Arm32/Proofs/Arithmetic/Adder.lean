import Arm32.Adder

/-! The adder against the integers. The result is the sum modulo 2^32. The carry says that the sum of the operands as
unsigned numbers does not fit a word, and the overflow that the sum of them as signed numbers does not. Of a difference
the carry says that the unsigned numbers are in order, so that nothing had to be borrowed. -/

namespace Arm32

/-- An integer that is the signed value of some word. -/
def Word.FitsSigned (value : Int) : Prop := -0x80000000 ≤ value ∧ value < 0x80000000

instance (value : Int) : Decidable (Word.FitsSigned value) := inferInstanceAs (Decidable (_ ∧ _))

/-- A signed value is the unsigned one, or lies one bound below it if that is in the upper half. -/
theorem Word.toInt_eq (value : Word) :
    value.toInt = if value.toNat < 0x80000000 then (value.toNat : Int) else value.toNat - 0x100000000 := by
  rw [BitVec.toInt_eq_toNat_cond]
  split <;> split <;> omega

theorem Word.msb_eq (value : Word) : value.msb = decide (0x80000000 ≤ value.toNat) := BitVec.msb_eq_decide value

theorem Word.toInt_not (value : Word) : (~~~value).toInt = -value.toInt - 1 := by
  have below := value.isLt
  rw [toInt_eq, toInt_eq, BitVec.toNat_not]
  split <;> split <;> omega

namespace Adder

variable {first second : Word} {carryIn : Bool}

theorem halfSum_eq (first second : Word) : halfSum first second = (first.toNat + second.toNat) / 2 := by
  have upper (value : Word) : (value >>> 1).toNat = value.toNat / 2 := by
    rw [BitVec.toNat_ushiftRight, Nat.shiftRight_eq_div_pow]
  -- Both bottom bits are set, or nothing is carried out of them.
  have bottom : (first &&& second &&& 1).toNat = first.toNat % 2 * (second.toNat % 2) := by
    have both : (first &&& second &&& 1).toNat = (first.toNat &&& second.toNat) % 2 := by
      rw [BitVec.toNat_and, BitVec.toNat_and]
      exact Nat.and_one_is_mod _
    rcases Nat.mod_two_eq_zero_or_one first.toNat with even | odd <;>
      rcases Nat.mod_two_eq_zero_or_one second.toNat with even' | odd' <;>
      simp only [Nat.and_mod_two_pow (n := 1), *] <;> rfl
  rw [halfSum, upper, upper, bottom]
  rcases Nat.mod_two_eq_zero_or_one first.toNat with even | odd <;>
    rcases Nat.mod_two_eq_zero_or_one second.toNat with even' | odd' <;> simp only [*] <;> omega

theorem pair_carry (first second : Word) :
    (pair first second).carry = decide (Word.bound ≤ first.toNat + second.toNat) := by
  have below := first.isLt
  have below' := second.isLt
  rw [pair, halfSum_eq, Nat.testBit_eq_decide_div_mod_eq, decide_eq_decide, Word.bound]
  omega

theorem pair_overflow (first second : Word) :
    (pair first second).overflow = decide (¬ Word.FitsSigned (first.toInt + second.toInt)) := by
  have below := first.isLt
  have below' := second.isLt
  have sum : (first + second).toNat = (first.toNat + second.toNat) % 0x100000000 := BitVec.toNat_add first second
  rw [pair, Bool.eq_iff_iff, decide_eq_true_eq]
  simp only [Word.FitsSigned, Word.msb_eq, Word.toInt_eq, sum, Bool.or_eq_true, Bool.and_eq_true, Bool.not_eq_true',
    decide_eq_true_eq, decide_eq_false_iff_not]
  split <;> split <;> omega

theorem add_result (first second : Word) (carryIn : Bool) :
    (add first second carryIn).result = first + second + BitVec.ofNat 32 carryIn.toNat := by
  cases carryIn with
  | false => exact (BitVec.add_zero _).symm
  | true => rfl

theorem add_sign (first second : Word) (carryIn : Bool) :
    (add first second carryIn).sign = (add first second carryIn).result.msb := by
  cases carryIn <;> rfl

theorem add_zero (first second : Word) (carryIn : Bool) :
    (add first second carryIn).zero = ((add first second carryIn).result == 0) := by
  cases carryIn <;> rfl

theorem add_carry (first second : Word) (carryIn : Bool) :
    (add first second carryIn).carry = decide (Word.bound ≤ first.toNat + second.toNat + carryIn.toNat) := by
  cases carryIn with
  | false => exact pair_carry first second
  | true =>
      have sum : (first + second).toNat = (first.toNat + second.toNat) % 0x100000000 := BitVec.toNat_add first second
      have carries : (add first second true).carry = ((pair first second).carry ^^ (pair (first + second) 1).carry) := rfl
      have below := first.isLt
      have below' := second.isLt
      rw [carries, pair_carry, pair_carry, sum, Word.bound, Bool.toNat_true]
      -- The second step can only carry if the first one did not, and left all bits set.
      rw [Bool.eq_iff_iff, bne_iff_ne, ne_eq, decide_eq_decide, decide_eq_true_eq]
      have one : (1 : Word).toNat = 1 := rfl
      rw [one]
      omega

theorem add_overflow (first second : Word) (carryIn : Bool) :
    (add first second carryIn).overflow =
      decide (¬ Word.FitsSigned (first.toInt + second.toInt + carryIn.toNat)) := by
  cases carryIn with
  | false =>
      rw [Bool.toNat_false, Int.natCast_zero, Int.add_zero]
      exact pair_overflow first second
  | true =>
      have overflows : (add first second true).overflow =
          ((pair first second).overflow ^^ (pair (first + second) 1).overflow) := rfl
      have below := first.isLt
      have below' := second.isLt
      have sum : (first + second).toNat = (first.toNat + second.toNat) % 0x100000000 := BitVec.toNat_add first second
      have one : (1 : Word).toInt = 1 := rfl
      rw [overflows, pair_overflow, pair_overflow, Bool.toNat_true, one]
      rw [Bool.eq_iff_iff, bne_iff_ne, ne_eq, decide_eq_decide, decide_eq_true_eq]
      simp only [Word.FitsSigned, Word.toInt_eq, sum]
      split <;> split <;> split <;> omega

/-! ### Differences -/

theorem sub_result (first second : Word) : (add first (~~~second) true).result = first - second := by
  rw [add_result, Bool.toNat_true, BitVec.sub_eq_add_neg, BitVec.neg_eq_not_add, BitVec.add_assoc]

theorem sub_carry (first second : Word) :
    (add first (~~~second) true).carry = decide (second.toNat ≤ first.toNat) := by
  have below := second.isLt
  rw [add_carry, BitVec.toNat_not, Bool.toNat_true, Word.bound, decide_eq_decide]
  omega

theorem sub_overflow (first second : Word) :
    (add first (~~~second) true).overflow = decide (¬ Word.FitsSigned (first.toInt - second.toInt)) := by
  have difference : first.toInt + (~~~second).toInt + (true.toNat : Int) = first.toInt - second.toInt := by
    rw [Word.toInt_not, Bool.toNat_true]
    omega
  rw [add_overflow, difference]

end Adder
end Arm32
