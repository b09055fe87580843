import Arm32.Vfp.ShortVector

/-! Where the elements of a short vector lie. Each operand goes round its own bank of eight slots. As long as the
destinations do not go all the way round, no two of them share a register. -/

namespace Arm32.Vfp

variable {precision : Precision} {slot other : Slot} {near far step number length : Nat} {extension : Bool}

namespace Slot

/-- The slot so many places further round the same bank. -/
def further (slot : Slot) (places : Nat) : Slot :=
  BitVec.ofNat 5 (8 * (slot.toNat / 8) + (slot.toNat + places) % 8)

theorem toNat_further (slot : Slot) (places : Nat) :
    (slot.further places).toNat = 8 * (slot.toNat / 8) + (slot.toNat + places) % 8 := by
  have below : slot.toNat < 32 := slot.isLt
  rw [further, BitVec.toNat_ofNat]
  exact Nat.mod_eq_of_lt (by omega)

theorem further_zero (slot : Slot) : slot.further 0 = slot := by
  refine BitVec.eq_of_toNat_eq ?_
  rw [toNat_further]
  omega

theorem further_further (slot : Slot) (first second : Nat) :
    (slot.further first).further second = slot.further (first + second) := by
  refine BitVec.eq_of_toNat_eq ?_
  simp only [toNat_further]
  omega

theorem nextInBank_eq (slot : Slot) (places : Nat) : slot.nextInBank places = slot.further places := by
  have below : slot.toNat < 32 := slot.isLt
  refine BitVec.eq_of_toNat_eq ?_
  have place : (slot.extractLsb' 0 3 + BitVec.ofNat 3 places).toNat = (slot.toNat + places) % 8 := by
    simp
  have bank : (slot.extractLsb' 3 2).toNat = slot.toNat / 8 := by
    simp only [BitVec.extractLsb'_toNat, Nat.shiftRight_eq_div_pow]
    omega
  rw [nextInBank, toNat_further, BitVec.toNat_append, bank, ← Nat.shiftLeft_add_eq_or_of_lt (BitVec.isLt _), place,
    Nat.shiftLeft_eq, Nat.mul_comm]

theorem inScalarBank_eq_decide (slot : Slot) : slot.inScalarBank = decide (slot.toNat < 8) := by
  revert slot
  decide

theorem further_lt_eight_iff : (slot.further number).toNat < 8 ↔ slot.toNat < 8 := by
  rw [toNat_further]
  omega

/-- The slots name the same register. -/
def Shares (precision : Precision) (first second : Slot) : Prop :=
  first.toNat / precision.words = second.toNat / precision.words

instance : Decidable (Shares precision slot other) := inferInstanceAs (Decidable (_ = _))

/-- No register comes back within one round. -/
theorem not_shares_further (order : near < far) (round : far < 8) (nearWhole : precision.words ∣ near)
    (farWhole : precision.words ∣ far) : ¬ Shares precision (slot.further near) (slot.further far) := by
  rw [Shares, toNat_further, toNat_further]
  cases precision <;> simp only [Precision.words] at nearWhole farWhole ⊢ <;> omega

end Slot

/-- The registers of an element, counted from the first. In an extension operation the second field is no register, and
a last operand in the scalar bank is the same for all. -/
def Operands.element (first : Operands) (step : Nat) (extension : Bool) (number : Nat) : Operands :=
  { fd := first.fd.further (number * step)
    fn := if extension then first.fn else first.fn.further (number * step)
    fm := if first.fm.toNat < 8 then first.fm else first.fm.further (number * step) }

theorem Operands.element_zero (first : Operands) : first.element step extension 0 = first := by
  simp [element, Slot.further_zero]

theorem Operands.element_next (first : Operands) :
    (first.next step extension).element step extension number = first.element step extension (number + 1) := by
  have walk (slot : Slot) : (slot.further step).further (number * step) = slot.further ((number + 1) * step) := by
    rw [Slot.further_further, Nat.succ_mul, Nat.add_comm]
  simp only [element, next, Slot.nextInBank_eq, walk, Slot.inScalarBank_eq_decide, decide_eq_true_eq,
    Operands.mk.injEq, true_and]
  constructor
  · cases extension with
    | true => rfl
    | false => exact walk first.fn
  · by_cases scalar : first.fm.toNat < 8
    · simp only [scalar, if_true]
    · simp only [scalar, if_false, Slot.further_lt_eight_iff, walk]

theorem vectorOperands_eq (length step : Nat) (extension : Bool) (first : Operands) :
    vectorOperands length step extension first = (List.range length).map (first.element step extension) := by
  induction length generalizing first with
  | zero => rfl
  | succ length ih =>
      have later : (first.element step extension ∘ Nat.succ) = (first.next step extension).element step extension := by
        funext number
        exact (first.element_next).symm
      rw [vectorOperands, ih, List.range_succ_eq_map, List.map_cons, List.map_map, later, Operands.element_zero]

/-- The destinations are apart if the vector fits its bank. -/
theorem Operands.element_apart (first : Operands) (some_step : 0 < step) (whole : precision.words ∣ step)
    (fits : length * step ≤ 8) (order : near < far) (within : far < length) :
    ¬ Slot.Shares precision (first.element step extension near).fd (first.element step extension far).fd := by
  refine Slot.not_shares_further ?_ ?_ (Nat.dvd_mul_left_of_dvd whole near) (Nat.dvd_mul_left_of_dvd whole far)
  · exact Nat.mul_lt_mul_of_pos_right order some_step
  · exact Nat.lt_of_lt_of_le (Nat.mul_lt_mul_of_pos_right within some_step) fits

end Arm32.Vfp
