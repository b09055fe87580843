import Mathlib.Data.Nat.Digits.Defs
import Arm32.Proofs.Arithmetic.Exact

/-! Numbers of several words. An addition goes from limb to limb, each time with the carry that the limb below has left,
and gives the sum of the numbers; of a number with all of its limbs complemented, and a carry to begin with, it gives the
difference. The flags that the last limb leaves are those of the whole numbers. -/

namespace Arm32

namespace Limbs

/-- Words as the digits of a number, the lowest first. -/
def value (limbs : List Word) : Nat := Nat.ofDigits Word.bound (limbs.map BitVec.toNat)

/-- One past the greatest number with that many limbs. -/
def bound (count : Nat) : Nat := Word.bound ^ count

/-- Words as a two's complement number. -/
def signed (limbs : List Word) : Int :=
  if 2 * value limbs < bound limbs.length then value limbs else value limbs - bound limbs.length

/-- An integer that is the signed value of some limbs, of which there are that many. -/
def FitsSigned (count : Nat) (number : Int) : Prop := -(bound count : Int) ≤ 2 * number ∧ 2 * number < bound count

instance (count : Nat) (number : Int) : Decidable (FitsSigned count number) := inferInstanceAs (Decidable (_ ∧ _))

variable {limb : Word} {limbs rest : List Word} {count : Nat}

theorem value_cons (limb : Word) (rest : List Word) : value (limb :: rest) = limb.toNat + Word.bound * value rest :=
  Nat.ofDigits_cons

theorem bound_succ (count : Nat) : bound (count + 1) = Word.bound * bound count := Nat.pow_succ'

theorem value_lt (limbs : List Word) : value limbs < bound limbs.length := by
  induction limbs with
  | nil => exact Nat.one_pos
  | cons limb rest ih =>
      have below := limb.isLt
      rw [value_cons, List.length_cons, bound_succ, Word.bound]
      omega

theorem two_dvd_bound (count : Nat) : 2 ∣ bound (count + 1) := by
  rw [bound_succ]
  exact (by decide : 2 ∣ Word.bound).mul_right _

theorem signed_singleton (limb : Word) : signed [limb] = limb.toInt := by
  have value : value [limb] = limb.toNat := Nat.ofDigits_singleton
  have bound : bound [limb].length = 0x100000000 := rfl
  rw [signed, value, bound, Word.toInt_eq]
  split <;> split <;> omega

/-- The sign is that of the upper limbs. -/
theorem signed_cons (limb : Word) (nonempty : rest ≠ []) :
    signed (limb :: rest) = limb.toNat + Word.bound * signed rest := by
  obtain ⟨count, length⟩ : ∃ count, rest.length = count + 1 :=
    Nat.exists_eq_succ_of_ne_zero (List.length_eq_zero_iff.not.mpr nonempty)
  have below := limb.isLt
  have even := two_dvd_bound count
  rw [signed, signed, value_cons, List.length_cons, bound_succ, length, Word.bound]
  split <;> split <;> omega

theorem fitsSigned_one (number : Int) : FitsSigned 1 number ↔ Word.FitsSigned number := by
  have bound : bound 1 = 0x100000000 := rfl
  rw [FitsSigned, Word.FitsSigned, bound]
  omega

theorem fitsSigned_succ {low : Nat} (below : low < Word.bound) (high : Int) :
    FitsSigned (count + 1 + 1) (low + Word.bound * high) ↔ FitsSigned (count + 1) high := by
  have even := two_dvd_bound count
  rw [FitsSigned, FitsSigned, bound_succ (count + 1)]
  rw [Word.bound] at below ⊢
  omega

/-! ### Complements -/

theorem value_complement (limbs : List Word) : value (limbs.map (~~~·)) + value limbs + 1 = bound limbs.length := by
  induction limbs with
  | nil => rfl
  | cons limb rest ih =>
      have below := limb.isLt
      rw [List.map_cons, value_cons, value_cons, List.length_cons, bound_succ, ← ih, BitVec.toNat_not, Word.bound]
      omega

theorem signed_complement (nonempty : limbs ≠ []) : signed (limbs.map (~~~·)) = -signed limbs - 1 := by
  obtain ⟨count, length⟩ : ∃ count, limbs.length = count + 1 :=
    Nat.exists_eq_succ_of_ne_zero (List.length_eq_zero_iff.not.mpr nonempty)
  have even := two_dvd_bound count
  have complement := value_complement limbs
  rw [signed, signed, List.length_map, length] at *
  split <;> split <;> omega

end Limbs

/-! ### Carry chains -/

namespace Adder

open Limbs

/-- The sums of the limbs of two numbers, each with the carry of the one below it. -/
def chain (carry : Bool) : List (Word × Word) → List Sum
  | [] => []
  | limb :: rest => add limb.1 limb.2 carry :: chain (add limb.1 limb.2 carry).carry rest

def results (carry : Bool) (limbs : List (Word × Word)) : List Word := (chain carry limbs).map Sum.result

/-- The carry out of the last limb. -/
def carried (carry : Bool) : List (Word × Word) → Bool
  | [] => carry
  | limb :: rest => carried (add limb.1 limb.2 carry).carry rest

/-- The status register after each of the sums has set the flags. -/
def flagged (status : Psr) (carry : Bool) (limbs : List (Word × Word)) : Psr :=
  (chain carry limbs).foldl Psr.setArithmetic status

variable {status : Psr} {carry : Bool} {limb : Word × Word} {limbs rest : List (Word × Word)}

theorem results_cons (carry : Bool) (limb : Word × Word) (rest : List (Word × Word)) :
    results carry (limb :: rest) =
      (add limb.1 limb.2 carry).result :: results (add limb.1 limb.2 carry).carry rest := rfl

theorem flagged_cons (status : Psr) (carry : Bool) (limb : Word × Word) (rest : List (Word × Word)) :
    flagged status carry (limb :: rest) =
      flagged (status.setArithmetic (add limb.1 limb.2 carry)) (add limb.1 limb.2 carry).carry rest := rfl

theorem length_results (carry : Bool) (limbs : List (Word × Word)) : (results carry limbs).length = limbs.length := by
  induction limbs generalizing carry with
  | nil => rfl
  | cons limb rest ih => exact congrArg Nat.succ (ih _)

theorem results_ne_nil (carry : Bool) (limb : Word × Word) (rest : List (Word × Word)) :
    results carry (limb :: rest) ≠ [] := by
  rw [results_cons]
  exact List.cons_ne_nil _ _

theorem toNat_add (first second : Word) (carry : Bool) :
    (add first second carry).result.toNat + Word.bound * (add first second carry).carry.toNat =
      first.toNat + second.toNat + carry.toNat := by
  have below := first.isLt
  have secondBelow := second.isLt
  have carryIn := carry.toNat_le
  have sum := add_isExact first second carry
  have result := sum.result
  cases carryOut : (add first second carry).carry with
  | false =>
      have fits := of_decide_eq_false (sum.carry.symm.trans carryOut)
      rw [Bool.toNat_false]
      rw [Word.bound] at *
      omega
  | true =>
      have carries := of_decide_eq_true (sum.carry.symm.trans carryOut)
      rw [Bool.toNat_true]
      rw [Word.bound] at *
      omega

/-- The results and the last carry make up the sum of the two numbers. -/
theorem value_results (carry : Bool) (limbs : List (Word × Word)) :
    value (results carry limbs) + bound limbs.length * (carried carry limbs).toNat =
      value (limbs.map Prod.fst) + value (limbs.map Prod.snd) + carry.toNat := by
  induction limbs generalizing carry with
  | nil => exact (Nat.zero_add _).trans ((Nat.one_mul _).trans (Nat.zero_add _).symm)
  | cons limb rest ih =>
      have lowest := toNat_add limb.1 limb.2 carry
      have upper := ih (add limb.1 limb.2 carry).carry
      rw [results_cons, value_cons, carried, List.length_cons, bound_succ, Nat.mul_assoc, List.map_cons, value_cons,
        List.map_cons, value_cons]
      rw [Word.bound] at *
      omega

theorem carry_flagged (linked : status.carry = carry) (limbs : List (Word × Word)) :
    (flagged status carry limbs).carry = carried carry limbs := by
  induction limbs generalizing status carry with
  | nil => exact linked
  | cons limb rest ih => exact ih Psr.carry_setArithmetic

theorem negative_flagged (status : Psr) (carry : Bool) (limb : Word × Word) (rest : List (Word × Word)) :
    (flagged status carry (limb :: rest)).negative = decide (signed (results carry (limb :: rest)) < 0) := by
  induction rest generalizing status carry limb with
  | nil =>
      rw [flagged_cons, results_cons]
      show (status.setArithmetic _).negative = decide (signed [_] < 0)
      rw [Psr.negative_setArithmetic, add_sign, signed_singleton, BitVec.msb_eq_toInt]
  | cons next rest ih =>
      have below := (add limb.1 limb.2 carry).result.isLt
      rw [flagged_cons, ih, results_cons carry, signed_cons _ (results_ne_nil _ next rest), Word.bound, decide_eq_decide]
      omega

/-- The last limb overflows if the sum of the whole numbers does. -/
theorem overflow_flagged (status : Psr) (carry : Bool) (limb : Word × Word) (rest : List (Word × Word)) :
    (flagged status carry (limb :: rest)).overflow =
      decide (¬ FitsSigned (rest.length + 1) (signed ((limb :: rest).map Prod.fst) +
        signed ((limb :: rest).map Prod.snd) + carry.toNat)) := by
  induction rest generalizing status carry limb with
  | nil =>
      show (status.setArithmetic _).overflow = decide (¬ FitsSigned 1 (signed [limb.1] + signed [limb.2] + _))
      rw [Psr.overflow_setArithmetic, add_overflow, signed_singleton, signed_singleton, decide_eq_decide, fitsSigned_one]
  | cons next rest ih =>
      have lowest := toNat_add limb.1 limb.2 carry
      have upper (side : Word × Word → Word) : signed ((limb :: next :: rest).map side) =
          (side limb).toNat + Word.bound * signed ((next :: rest).map side) := signed_cons _ (List.cons_ne_nil _ _)
      -- With the lowest limb taken off, the carry out of it goes into the sum of the upper ones.
      have total : signed ((limb :: next :: rest).map Prod.fst) + signed ((limb :: next :: rest).map Prod.snd) +
            carry.toNat =
          (add limb.1 limb.2 carry).result.toNat + Word.bound * (signed ((next :: rest).map Prod.fst) +
            signed ((next :: rest).map Prod.snd) + (add limb.1 limb.2 carry).carry.toNat) := by
        rw [upper, upper]
        rw [Word.bound] at *
        omega
      rw [flagged_cons, ih, total, List.length_cons, decide_eq_decide, fitsSigned_succ (BitVec.isLt _)]

/-! ### Sums and differences of numbers -/

theorem mod_of_add_mul {result modulus total : Nat} {carry : Bool} (below : result < modulus)
    (sum : result + modulus * carry.toNat = total) : result = total % modulus := by
  rw [← sum, Nat.add_mul_mod_self_left, Nat.mod_eq_of_lt below]

theorem carry_of_add_mul {result modulus total : Nat} {carry : Bool} (below : result < modulus)
    (sum : result + modulus * carry.toNat = total) : carry = decide (modulus ≤ total) := by
  cases carry with
  | false =>
      rw [Bool.toNat_false] at sum
      exact (decide_eq_false (by omega)).symm
  | true =>
      rw [Bool.toNat_true] at sum
      exact (decide_eq_true (by omega)).symm

theorem value_results_lt (carry : Bool) (limbs : List (Word × Word)) :
    value (results carry limbs) < bound limbs.length := by
  have below := value_lt (results carry limbs)
  rwa [length_results] at below

theorem value_sum (limbs : List (Word × Word)) :
    value (results false limbs) = (value (limbs.map Prod.fst) + value (limbs.map Prod.snd)) % bound limbs.length :=
  mod_of_add_mul (value_results_lt false limbs) (value_results false limbs)

theorem carried_sum (limbs : List (Word × Word)) :
    carried false limbs =
      decide (bound limbs.length ≤ value (limbs.map Prod.fst) + value (limbs.map Prod.snd)) :=
  carry_of_add_mul (value_results_lt false limbs) (value_results false limbs)

/-- The limbs with those of the second number complemented. -/
def complemented (limbs : List (Word × Word)) : List (Word × Word) := limbs.map (Prod.map id (~~~·))

theorem map_fst_complemented (limbs : List (Word × Word)) : (complemented limbs).map Prod.fst = limbs.map Prod.fst := by
  rw [complemented, List.map_map]
  rfl

theorem map_snd_complemented (limbs : List (Word × Word)) :
    (complemented limbs).map Prod.snd = (limbs.map Prod.snd).map (~~~·) := by
  rw [complemented, List.map_map, List.map_map]
  rfl

theorem length_complemented (limbs : List (Word × Word)) : (complemented limbs).length = limbs.length := List.length_map _

theorem value_results_complemented (limbs : List (Word × Word)) :
    value (results true (complemented limbs)) + bound limbs.length * (carried true (complemented limbs)).toNat +
        value (limbs.map Prod.snd) = value (limbs.map Prod.fst) + bound limbs.length := by
  have sum := value_results true (complemented limbs)
  have complement := value_complement (limbs.map Prod.snd)
  rw [map_fst_complemented, map_snd_complemented, length_complemented, Bool.toNat_true] at sum
  rw [List.length_map] at complement
  omega

theorem value_difference (limbs : List (Word × Word)) :
    (value (results true (complemented limbs)) : Int) =
      (value (limbs.map Prod.fst) - value (limbs.map Prod.snd)) % bound limbs.length := by
  have below := value_results_lt true (complemented limbs)
  have sum := value_results_complemented limbs
  rw [length_complemented] at below
  have difference : (value (limbs.map Prod.fst) - value (limbs.map Prod.snd) : Int) =
      value (results true (complemented limbs)) +
        bound limbs.length * ((carried true (complemented limbs)).toNat - 1 : Int) := by
    rw [Int.mul_sub, Int.mul_one]
    omega
  rw [difference, Int.add_mul_emod_self_left]
  exact (Int.emod_eq_of_lt (Int.natCast_nonneg _) (Int.ofNat_lt.mpr below)).symm

theorem carried_difference (limbs : List (Word × Word)) :
    carried true (complemented limbs) = decide (value (limbs.map Prod.snd) ≤ value (limbs.map Prod.fst)) := by
  have below := value_results_lt true (complemented limbs)
  rw [length_complemented] at below
  rw [carry_of_add_mul below (Nat.eq_sub_of_add_eq (value_results_complemented limbs)), decide_eq_decide]
  omega

theorem overflow_difference (status : Psr) (limb : Word × Word) (rest : List (Word × Word)) :
    (flagged status true (complemented (limb :: rest))).overflow =
      decide (¬ FitsSigned (limb :: rest).length
        (signed ((limb :: rest).map Prod.fst) - signed ((limb :: rest).map Prod.snd))) := by
  have overflow := overflow_flagged status true (Prod.map id (~~~·) limb) (complemented rest)
  have cons : Prod.map id (~~~·) limb :: complemented rest = complemented (limb :: rest) := rfl
  have nonempty : (limb :: rest).map Prod.snd ≠ [] := List.cons_ne_nil _ _
  have difference (first second : Int) : first + (-second - 1) + (true.toNat : Int) = first - second := by
    rw [Bool.toNat_true]
    omega
  rw [cons, map_fst_complemented, map_snd_complemented, signed_complement nonempty, difference,
    length_complemented] at overflow
  exact overflow

/-- The sign is that of the exact difference, unless the difference overflows. -/
theorem negative_bne_overflow_difference (status : Psr) (limb : Word × Word) (rest : List (Word × Word)) :
    ((flagged status true (complemented (limb :: rest))).negative !=
        (flagged status true (complemented (limb :: rest))).overflow) =
      decide (signed ((limb :: rest).map Prod.fst) < signed ((limb :: rest).map Prod.snd)) := by
  have negative : (flagged status true (complemented (limb :: rest))).negative =
      decide (signed (results true (complemented (limb :: rest))) < 0) := negative_flagged status true _ _
  have sum := value_results_complemented (limb :: rest)
  have below := value_lt (results true (complemented (limb :: rest)))
  have firstBelow := value_lt ((limb :: rest).map Prod.fst)
  have secondBelow := value_lt ((limb :: rest).map Prod.snd)
  rw [negative, overflow_difference, Bool.eq_iff_iff, bne_iff_ne, ne_eq, decide_eq_decide, decide_eq_true_eq, FitsSigned,
    signed, signed, signed]
  simp only [length_results, length_complemented, List.length_map] at *
  -- The carry orders the two as unsigned numbers, and the splits are on which of them have a sign.
  cases carries : carried true (complemented (limb :: rest)) with
  | false =>
      rw [carries, Bool.toNat_false] at sum
      split <;> split <;> split <;> omega
  | true =>
      rw [carries, Bool.toNat_true] at sum
      split <;> split <;> split <;> omega

end Adder

end Arm32
