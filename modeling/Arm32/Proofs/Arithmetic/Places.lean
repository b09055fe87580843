import Mathlib.Logic.Function.Iterate
import Arm32.Proofs.Safety.DataPath

/-! The barrel shifter, place by place. Any shift is so many steps of one place each, and its carry is the bit that the
last of them takes out of the word: the lowest bit, or for a shift to the left the highest, of what the steps before have
left. An encoded amount of zero stands for 32 places, or for one place through the carry. -/

namespace Arm32

/-- The word with the carry above it, which is what a rotation through the carry goes round. -/
def Shifted.withCarry (operand : Shifted) : BitVec 33 := BitVec.ofBool operand.carry ++ operand.result

namespace Shifter

/-- A word moved by any number of places. -/
def placed (kind : ShiftKind) (count : Nat) (value : Word) : Word :=
  match kind with
  | .lsl => value <<< count
  | .lsr => value >>> count
  | .asr => value.sshiftRight count
  | .ror => value.rotateRight count

/-- The bit that one more place takes out of a word. -/
def leaving (kind : ShiftKind) (value : Word) : Bool :=
  match kind with
  | .lsl => value.msb
  | .lsr | .asr | .ror => value.getLsbD 0

variable {kind : ShiftKind} {amount value : Word} {carry : Bool} {count place : Nat}

/-! ### Steps -/

/-- A rotation reads each bit as many places further up, counted round the word. -/
theorem getLsbD_rotateRight_of_lt {width : Nat} {value : BitVec width} (within : place < width) :
    (value.rotateRight count).getLsbD place = value.getLsbD ((place + count) % width) := by
  have below : count % width < width := Nat.mod_lt _ (by omega)
  rw [BitVec.getLsbD_rotateRight, ← Nat.add_mod_mod]
  generalize count % width = turned at below
  by_cases wraps : place < width - turned
  · rw [decide_eq_true wraps, cond_true, Nat.mod_eq_of_lt (by omega), Nat.add_comm]
  · rw [decide_eq_false wraps, cond_false, decide_eq_true within, Bool.true_and, Nat.mod_eq_sub_mod (by omega),
      Nat.mod_eq_of_lt (by omega)]
    congr 1
    omega

theorem rotateRight_succ (value : Word) (count : Nat) :
    value.rotateRight (count + 1) = (value.rotateRight count).rotateRight 1 := by
  refine BitVec.eq_of_getLsbD_eq ?_
  intro place within
  rw [getLsbD_rotateRight_of_lt within, getLsbD_rotateRight_of_lt within,
    getLsbD_rotateRight_of_lt (Nat.mod_lt _ (by decide))]
  congr 1
  omega

theorem placed_succ (kind : ShiftKind) (count : Nat) (value : Word) :
    placed kind (count + 1) value = placed kind 1 (placed kind count value) := by
  cases kind with
  | lsl => exact BitVec.shiftLeft_add value count 1
  | lsr => exact BitVec.shiftRight_add value count 1
  | asr => exact BitVec.sshiftRight_add
  | ror => exact rotateRight_succ value count

theorem placed_zero (kind : ShiftKind) (value : Word) : placed kind 0 value = value := by
  cases kind with
  | lsl => exact BitVec.shiftLeft_zero value
  | lsr => exact BitVec.ushiftRight_zero value
  | asr => exact BitVec.sshiftRight_zero
  | ror =>
      refine BitVec.eq_of_getLsbD_eq ?_
      intro place within
      exact (getLsbD_rotateRight_of_lt within).trans (congrArg value.getLsbD (Nat.mod_eq_of_lt within))

theorem bitStep_eq (kind : ShiftKind) (operand : Shifted) :
    bitStep kind operand = { result := placed kind 1 operand.result, carry := leaving kind operand.result } := by
  cases kind <;> rfl

theorem iterate_bitStep_succ (kind : ShiftKind) (count : Nat) (operand : Shifted) :
    (bitStep kind)^[count + 1] operand =
      { result := placed kind (count + 1) operand.result, carry := leaving kind (placed kind count operand.result) } := by
  induction count with
  | zero => rw [Function.iterate_one, bitStep_eq, placed_zero]
  | succ count ih => rw [Function.iterate_succ_apply', ih, bitStep_eq, placed_succ kind (count + 1)]

/-! ### The bit that leaves -/

theorem leaving_lsl (value : Word) (count : Nat) :
    leaving .lsl (placed .lsl count value) = (decide (count < 32) && value.getLsbD (31 - count)) :=
  BitVec.msb_shiftLeft

theorem leaving_lsr (value : Word) (count : Nat) : leaving .lsr (placed .lsr count value) = value.getLsbD count :=
  BitVec.getLsbD_ushiftRight value count 0

theorem leaving_asr (value : Word) (count : Nat) :
    leaving .asr (placed .asr count value) = if count < 32 then value.getLsbD count else value.msb :=
  BitVec.getLsbD_sshiftRight value count 0

theorem leaving_ror (value : Word) (count : Nat) :
    leaving .ror (placed .ror count value) = value.getLsbD (count % 32) := by
  rw [leaving, placed, getLsbD_rotateRight_of_lt (by decide), Nat.zero_add]

/-! ### So many steps -/

/-- Less than the width of a word: what is shifted, and a bit of it. -/
theorem iterate_bitStep_of_lt (positive : 0 < count) (small : count < 32) :
    (bitStep kind)^[count] { result := value, carry } = moved kind count value := by
  obtain ⟨before, rfl⟩ : ∃ before, count = before + 1 := Nat.exists_eq_succ_of_ne_zero (by omega)
  rw [iterate_bitStep_succ]
  cases kind with
  | lsl =>
      have last : 32 - (before + 1) = 31 - before := by omega
      rw [leaving_lsl, decide_eq_true (by omega), Bool.true_and, moved, last]
      rfl
  | lsr =>
      rw [leaving_lsr]
      rfl
  | asr =>
      rw [leaving_asr, if_pos (by omega)]
      rfl
  | ror =>
      rw [leaving_ror, Nat.mod_eq_of_lt (by omega)]
      rfl

/-- Once only the sign is left, further places change nothing. -/
theorem sshiftRight_of_le (value : Word) (wide : 31 ≤ count) : value.sshiftRight count = value.sshiftRight 31 := by
  refine BitVec.eq_of_getLsbD_eq ?_
  intro place within
  have sign := BitVec.msb_eq_getLsbD_last value
  rw [BitVec.getLsbD_sshiftRight, BitVec.getLsbD_sshiftRight]
  grind

/-- The last bit leaves with place 32. From then on there is nothing left to go. -/
theorem iterate_lsl_of_le (wide : 32 ≤ count) :
    (bitStep .lsl)^[count] { result := value, carry } =
      { result := 0, carry := if count = 32 then value.getLsbD 0 else false } := by
  obtain ⟨before, rfl⟩ : ∃ before, count = before + 1 := Nat.exists_eq_succ_of_ne_zero (by omega)
  rw [iterate_bitStep_succ, leaving_lsl, placed, BitVec.shiftLeft_eq_zero wide]
  by_cases full : before + 1 = 32
  · obtain rfl : before = 31 := Nat.succ_inj.mp full
    rfl
  · rw [if_neg full, decide_eq_false (by omega), Bool.false_and]
    rfl

theorem iterate_lsr_of_le (wide : 32 ≤ count) :
    (bitStep .lsr)^[count] { result := value, carry } =
      { result := 0, carry := if count = 32 then value.msb else false } := by
  obtain ⟨before, rfl⟩ : ∃ before, count = before + 1 := Nat.exists_eq_succ_of_ne_zero (by omega)
  rw [iterate_bitStep_succ, leaving_lsr, placed, BitVec.ushiftRight_eq_zero wide]
  by_cases full : before + 1 = 32
  · obtain rfl : before = 31 := Nat.succ_inj.mp full
    rw [if_pos rfl, BitVec.msb_eq_getLsbD_last]
    rfl
  · rw [if_neg full, BitVec.getLsbD_of_ge value before (by omega)]
    rfl

theorem iterate_asr_of_le (wide : 32 ≤ count) :
    (bitStep .asr)^[count] { result := value, carry } = { result := value.sshiftRight 31, carry := value.msb } := by
  obtain ⟨before, rfl⟩ : ∃ before, count = before + 1 := Nat.exists_eq_succ_of_ne_zero (by omega)
  have sign : (if before < 32 then value.getLsbD before else value.msb) = value.msb := by
    split
    · obtain rfl : before = 31 := by omega
      exact (BitVec.msb_eq_getLsbD_last value).symm
    · rfl
  rw [iterate_bitStep_succ, leaving_asr, sign, placed, sshiftRight_of_le value (by omega)]

/-- A rotation by whole words leaves the word, but not the carry. -/
theorem iterate_ror_of_mod_eq_zero (positive : 0 < count) (whole : count % 32 = 0) :
    (bitStep .ror)^[count] { result := value, carry } = { result := value, carry := value.msb } := by
  obtain ⟨before, rfl⟩ : ∃ before, count = before + 1 := Nat.exists_eq_succ_of_ne_zero (by omega)
  have top : before % 32 = 31 := by omega
  have same : placed .ror (before + 1) value = placed .ror 0 value := by
    rw [placed, placed, ← BitVec.rotateRight_mod_eq_rotateRight, whole]
  rw [iterate_bitStep_succ, leaving_ror, top, same, placed_zero, BitVec.msb_eq_getLsbD_last]

theorem iterate_ror_of_mod_ne_zero (partly : count % 32 ≠ 0) :
    (bitStep .ror)^[count] { result := value, carry } = moved .ror (count % 32) value := by
  obtain ⟨before, rfl⟩ : ∃ before, count = before + 1 := Nat.exists_eq_succ_of_ne_zero (by omega)
  have last : before % 32 = (before + 1) % 32 - 1 := by omega
  rw [iterate_bitStep_succ, leaving_ror, last, moved, BitVec.rotateRight_mod_eq_rotateRight]
  rfl

/-! ### Amounts in registers and in instructions -/

theorem byRegister_eq_iterate (kind : ShiftKind) (amount value : Word) (carry : Bool) :
    byRegister kind amount value carry = (bitStep kind)^[amount.toNat % 256] { result := value, carry } := by
  have places : (amount.extractLsb' 0 8).toNat = amount.toNat % 256 := BitVec.extractLsb'_toNat 0 8 amount
  unfold byRegister
  rw [places]
  generalize amount.toNat % 256 = places
  by_cases zero : places = 0
  · subst zero
    rfl
  have positive := Nat.pos_of_ne_zero zero
  simp only [zero, if_false]
  by_cases small : places < 32
  · rw [iterate_bitStep_of_lt positive small]
    cases kind <;> simp [small, moved, Nat.mod_eq_of_lt, zero]
  have wide : 32 ≤ places := Nat.le_of_not_lt small
  cases kind with
  | lsl =>
      rw [iterate_lsl_of_le wide]
      simp only [small, if_false]
      split <;> rfl
  | lsr =>
      rw [iterate_lsr_of_le wide]
      simp only [small, if_false]
      split <;> rfl
  | asr =>
      rw [iterate_asr_of_le wide]
      simp only [small, if_false]
  | ror =>
      by_cases whole : places % 32 = 0
      · rw [iterate_ror_of_mod_eq_zero positive whole]
        simp only [whole, if_true]
      · rw [iterate_ror_of_mod_ne_zero whole]
        simp only [whole, if_false, moved]

theorem byImmediate_eq_byRegister (kind : ShiftKind) {places : BitVec 5} (value : Word) (carry : Bool)
    (direct : places ≠ 0 ∨ kind = .lsl) :
    byImmediate kind places value carry = byRegister kind (places.setWidth 32) value carry := by
  have below := places.isLt
  have same : (places.setWidth 32).toNat % 256 = places.toNat := by
    rw [BitVec.toNat_setWidth_of_le (by decide)]
    omega
  rw [byRegister_eq_iterate, same]
  by_cases zero : places.toNat = 0
  · obtain rfl : kind = .lsl := direct.resolve_left (not_not_intro (BitVec.eq_of_toNat_eq zero))
    rw [byImmediate, zero]
    rfl
  · rw [iterate_bitStep_of_lt (Nat.pos_of_ne_zero zero) (by omega)]
    cases kind <;> simp [byImmediate, moved, zero]

theorem getLsbD_withCarry (operand : Shifted) (place : Nat) :
    operand.withCarry.getLsbD place =
      if place < 32 then operand.result.getLsbD place else (BitVec.ofBool operand.carry).getLsbD (place - 32) :=
  BitVec.getLsbD_append

/-- An encoded rotation by no places goes round the carry too. -/
theorem withCarry_byImmediate (value : Word) (carry : Bool) :
    (byImmediate .ror 0 value carry).withCarry =
      (Shifted.withCarry { result := value, carry }).rotateRight 1 := by
  have rotated : byImmediate .ror 0 value carry =
      { result := (value >>> 1) ||| (BitVec.ofBool carry).setWidth 32 <<< 31, carry := value.getLsbD 0 } := rfl
  refine BitVec.eq_of_getLsbD_eq ?_
  intro place within
  rw [getLsbD_rotateRight_of_lt within, getLsbD_withCarry, getLsbD_withCarry, rotated]
  rcases Nat.lt_trichotomy place 31 with lower | top | above
  · have next : (place + 1) % 33 = place + 1 := Nat.mod_eq_of_lt (by omega)
    rw [next, if_pos (by omega), if_pos (by omega)]
    simp [lower, Nat.add_comm]
  · subst top
    simp
  · obtain rfl : place = 32 := by omega
    simp

/-- Any shift is its amount of steps by one place. An amount of zero in an instruction stands for 32, or for a step of
the word and the carry together, but not for a shift to the left. -/
theorem shift_eq_steps (value : Word) (carry : Bool) :
    (∀ kind amount,
        byRegister kind amount value carry = (bitStep kind)^[amount.toNat % 256] { result := value, carry }) ∧
      (∀ kind amount, amount.toNat < 32 → amount ≠ 0 ∨ kind = .lsl →
        byImmediate? kind amount value carry = some (byRegister kind amount value carry)) ∧
      (∀ kind, kind = .lsr ∨ kind = .asr →
        byImmediate? kind 0 value carry = some (byRegister kind 32 value carry)) ∧
      (byImmediate? .ror 0 value carry).map Shifted.withCarry =
        some ((Shifted.withCarry { result := value, carry }).rotateRight 1) := by
  refine ⟨fun kind amount => byRegister_eq_iterate kind amount value carry, ?_, ?_, ?_⟩
  · intro kind amount small direct
    have whole : (amount.setWidth 5).setWidth 32 = amount := by
      refine BitVec.eq_of_toNat_eq ?_
      rw [BitVec.toNat_setWidth, BitVec.toNat_setWidth]
      omega
    have kept : amount.setWidth 5 ≠ 0 ∨ kind = .lsl := by
      refine direct.imp_left fun apart zero => apart ?_
      rw [← whole, zero]
      rfl
    rw [byImmediate?, if_pos small, byImmediate_eq_byRegister kind value carry kept, whole]
  · rintro kind (rfl | rfl)
    · rfl
    · rfl
  · exact congrArg some (withCarry_byImmediate value carry)

/-- The sign bit alone, moved 32 places by an amount of zero and 31 by the greatest amount. -/
theorem shift_eq_steps_sign :
    byImmediate? .asr 0 0x80000000 false = some { result := 0xffffffff, carry := true } ∧
      byImmediate? .ror 31 0x80000000 true = some { result := 1, carry := false } := by
  have steps := shift_eq_steps 0x80000000 false
  have steps' := shift_eq_steps 0x80000000 true
  refine ⟨(steps.2.2.1 .asr (.inr rfl)).trans (by decide), ?_⟩
  exact (steps'.2.1 .ror 31 (by decide) (.inl (by decide))).trans (by decide)

end Shifter
end Arm32
