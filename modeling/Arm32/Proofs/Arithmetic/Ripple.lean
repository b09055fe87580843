import Arm32.Proofs.Arithmetic.Exact
import Arm32.Proofs.Safety.DataPath

/-! The two adders against each other. The ripple knows the sum of the lowest bits and the carry out of them, one bit
further with each full adder. At the top its carry says that the unsigned sum does not fit a word, and a carry that went
in but did not come out, or came out but did not go in, that the signed sum does not. An integer and its flags belong to
one sum only, so both adders give the same. -/

namespace Arm32

theorem Sum.IsExact.unique {first second : Sum} {unsigned signed : Int} {carries : Bool}
    (isExact : first.IsExact unsigned signed carries) (isExactToo : second.IsExact unsigned signed carries) :
    first = second := by
  have result : first.result = second.result :=
    BitVec.eq_of_toNat_eq (Int.ofNat_inj.mp (isExact.result.trans isExactToo.result.symm))
  have carry : first.carry = second.carry := isExact.carry.trans isExactToo.carry.symm
  have overflow : first.overflow = second.overflow := isExact.overflow.trans isExactToo.overflow.symm
  have sign : first.sign = second.sign := by rw [isExact.sign, isExactToo.sign, result]
  have zero : first.zero = second.zero := by rw [isExact.zero, isExactToo.zero, result]
  cases first
  cases second
  congr

/-- A sum that is, with its flags, the exact one of two operands and a carry. -/
def Sum.IsSumOf (sum : Sum) (first second : Word) (carryIn : Bool) : Prop :=
  sum.IsExact (first.toNat + second.toNat + carryIn.toNat) (first.toInt + second.toInt + carryIn.toNat)
    (decide ((Word.bound : Int) ≤ first.toNat + second.toNat + carryIn.toNat))

namespace Adder

variable {first second : Word} {carryIn : Bool} {state : Ripple} {count : Nat}

/-! ### From bit to bit -/

/-- The ripple when it has gone over the lowest bits. -/
def rippled (first second : Word) (carryIn : Bool) (count : Nat) : Ripple :=
  (List.range count).foldl (fullAdder first second) { result := 0, carry := carryIn, intoTop := false }

theorem rippled_succ (count : Nat) :
    rippled first second carryIn (count + 1) =
      fullAdder first second (rippled first second carryIn count) count := by
  rw [rippled, List.range_succ, List.foldl_append]
  rfl

/-- What is known of the sum once the lowest bits are added. -/
structure Ripple.Reaches (state : Ripple) (first second : Word) (carryIn : Bool) (count : Nat) : Prop where
  result : ∀ place < count,
    state.result.getLsbD place = (first + second + (BitVec.ofBool carryIn).setWidth 32).getLsbD place
  carry : state.carry = BitVec.carry count first second carryIn
  intoTop : 31 < count → state.intoTop = BitVec.carry 31 first second carryIn

theorem Ripple.Reaches.fullAdder (reaches : state.Reaches first second carryIn count) (within : count < 32) :
    (fullAdder first second state count).Reaches first second carryIn (count + 1) := by
  refine ⟨?_, ?_, ?_⟩
  · intro place below
    show (Bits.setBit state.result count _).getLsbD place = _
    rw [Bits.getLsbD_setBit within]
    by_cases last : place = count
    · subst last
      rw [if_pos rfl, reaches.carry, BitVec.getLsbD_add_add_bool within, Bool.xor_assoc]
    · rw [if_neg last]
      exact reaches.result place (by omega)
  · rw [BitVec.carry_succ, ← reaches.carry]
    rfl
  · intro top
    have last : count = 31 := by omega
    subst last
    exact reaches.carry

theorem rippled_reaches (within : count ≤ 32) :
    (rippled first second carryIn count).Reaches first second carryIn count := by
  induction count with
  | zero =>
      refine ⟨?_, BitVec.carry_zero.symm, ?_⟩
      · intro place below
        exact absurd below (Nat.not_lt_zero place)
      · intro top
        exact absurd top (by decide)
  | succ count ih =>
      rw [rippled_succ]
      exact (ih (Nat.le_of_succ_le within)).fullAdder within

/-! ### The whole word -/

theorem ripple_result (first second : Word) (carryIn : Bool) :
    (ripple first second carryIn).result = first + second + (BitVec.ofBool carryIn).setWidth 32 :=
  BitVec.eq_of_getLsbD_eq (rippled_reaches (Nat.le_refl 32)).result

theorem ripple_carry (first second : Word) (carryIn : Bool) :
    (ripple first second carryIn).carry = decide (Word.bound ≤ first.toNat + second.toNat + carryIn.toNat) :=
  (rippled_reaches (Nat.le_refl 32)).carry.trans BitVec.carry_width

/-- The bits below the signs carry into the top bit, and there each sign counts for minus 2^31. -/
theorem ripple_overflow (first second : Word) (carryIn : Bool) :
    (ripple first second carryIn).overflow =
      decide (¬ Word.FitsSigned (first.toInt + second.toInt + carryIn.toNat)) := by
  have reaches := @rippled_reaches first second carryIn 32 (Nat.le_refl 32)
  have overflows : (ripple first second carryIn).overflow =
      (BitVec.carry 31 first second carryIn != BitVec.carry 32 first second carryIn) := by
    rw [← reaches.carry, ← reaches.intoTop (by decide)]
    rfl
  have below := first.isLt
  have below' := second.isLt
  have bit := Bool.toNat_le carryIn
  rw [overflows, BitVec.carry_width, BitVec.carry, Bool.eq_iff_iff, bne_iff_ne, ne_eq, decide_eq_decide,
    decide_eq_true_eq]
  simp only [Word.FitsSigned, Word.toInt_eq]
  split <;> split <;> omega

theorem ripple_isSumOf (first second : Word) (carryIn : Bool) :
    (ripple first second carryIn).IsSumOf first second carryIn := by
  refine ⟨?_, ?_, ripple_overflow first second carryIn, rfl, rfl⟩
  · rw [ripple_result]
    cases carryIn <;> simp only [BitVec.toNat_add, Bool.toNat_false, Bool.toNat_true, Word.bound] <;> simp
  · rw [ripple_carry, decide_eq_decide]
    omega

/-- Both adders give the exact sum with its carry and overflow, so they agree, and no half sum on the way to the carry
outgrows a word. -/
theorem ripple_eq_add (first second : Word) (carryIn : Bool) :
    ripple first second carryIn = add first second carryIn ∧
      (add first second carryIn).IsSumOf first second carryIn ∧
      (ripple first second carryIn).IsSumOf first second carryIn ∧
      checkedAdder first second carryIn = some (add first second carryIn) ∧
      ∀ left right, halfSum left right < Word.bound := by
  have fast : (add first second carryIn).IsSumOf first second carryIn := add_isExact first second carryIn
  have slow := ripple_isSumOf first second carryIn
  exact ⟨slow.unique fast, fast, slow, checkedAdder_eq, fun left right => halfSum_fits⟩

example : (ripple 0x7fffffff 0x80000000 true).overflow = false := by decide

end Adder
end Arm32
