import Arm32.Bits

/-! Fields of a word that make it up, and words that differ only in some of their bits. -/

namespace Arm32.Bits

variable {width width' : Nat}

/-- A bit is a field of its own. -/
theorem ofBool_getLsbD (word : BitVec width) (index : Nat) :
    BitVec.ofBool (word.getLsbD index) = word.extractLsb' index 1 := by
  apply BitVec.eq_of_getLsbD_eq
  intro place below
  obtain rfl : place = 0 := by omega
  simp

/-- The words have the same bits wherever the mask has none. -/
def AgreeOutside (mask first second : BitVec width) : Prop := first &&& ~~~mask = second &&& ~~~mask

instance (mask first second : BitVec width) : Decidable (AgreeOutside mask first second) :=
  inferInstanceAs (Decidable (first &&& ~~~mask = second &&& ~~~mask))

variable {mask first second third : BitVec width} {mask' first' second' : BitVec width'}

theorem agreeOutside_iff :
    AgreeOutside mask first second ↔
      ∀ index, mask.getLsbD index = false → first.getLsbD index = second.getLsbD index := by
  constructor
  · intro agree index clear
    by_cases below : index < width
    · have bit := congrArg (·.getLsbD index) agree
      simp only [BitVec.getLsbD_and, BitVec.getLsbD_not, below, decide_true, clear, Bool.not_false,
        Bool.and_true] at bit
      exact bit
    · rw [BitVec.getLsbD_of_ge _ _ (Nat.le_of_not_lt below), BitVec.getLsbD_of_ge _ _ (Nat.le_of_not_lt below)]
  · intro bits
    apply BitVec.eq_of_getLsbD_eq
    intro index below
    simp only [BitVec.getLsbD_and, BitVec.getLsbD_not, below, decide_true, Bool.true_and]
    cases clear : mask.getLsbD index with
    | false => rw [bits index clear]
    | true => rw [Bool.not_true, Bool.and_false, Bool.and_false]

theorem agreeOutside_zero : AgreeOutside 0 first second ↔ first = second := by
  rw [agreeOutside_iff]
  constructor
  · intro bits
    exact BitVec.eq_of_getLsbD_eq fun index _ => bits index BitVec.getLsbD_zero
  · rintro rfl _ _
    rfl

namespace AgreeOutside

theorem refl (mask word : BitVec width) : AgreeOutside mask word word := rfl

theorem of_eq (same : first = second) : AgreeOutside mask first second := same ▸ refl mask first

/-- Nothing is outside a mask of ones. -/
theorem allOnes (first second : BitVec width) : AgreeOutside (BitVec.allOnes width) first second := by
  rw [AgreeOutside, BitVec.not_allOnes, BitVec.and_zero, BitVec.and_zero]

theorem symm (agree : AgreeOutside mask first second) : AgreeOutside mask second first := Eq.symm agree

theorem trans (agree : AgreeOutside mask first second) (agree' : AgreeOutside mask second third) :
    AgreeOutside mask first third :=
  Eq.trans agree agree'

theorem append (agree : AgreeOutside mask first second) (agree' : AgreeOutside mask' first' second') :
    AgreeOutside (mask ++ mask') (first ++ first') (second ++ second') := by
  rw [agreeOutside_iff] at *
  intro index clear
  rw [BitVec.getLsbD_append] at clear ⊢
  rw [BitVec.getLsbD_append]
  by_cases low : index < width'
  · rw [if_pos low] at clear ⊢
    rw [if_pos low, agree' index clear]
  · rw [if_neg low] at clear ⊢
    rw [if_neg low, agree _ clear]

theorem bit (agree : AgreeOutside mask first second) (index : Nat) (clear : mask.getLsbD index = false) :
    first.getLsbD index = second.getLsbD index :=
  agreeOutside_iff.mp agree index clear

/-- A field that the mask does not touch is the same in both words. -/
theorem field (agree : AgreeOutside mask first second) (start length : Nat)
    (clear : mask.extractLsb' start length = 0) :
    first.extractLsb' start length = second.extractLsb' start length := by
  apply BitVec.eq_of_getLsbD_eq
  intro index below
  have clearBit := congrArg (·.getLsbD index) clear
  simp only [BitVec.getLsbD_extractLsb', below, decide_true, Bool.true_and, BitVec.ofNat_eq_ofNat,
    BitVec.getLsbD_zero] at clearBit ⊢
  exact agree.bit _ clearBit

/-- Bits of the mask may be inverted. -/
theorem xor {inverted : BitVec width} (within : AgreeOutside mask inverted 0) (word : BitVec width) :
    AgreeOutside mask (word ^^^ inverted) word := by
  rw [agreeOutside_iff]
  intro index clear
  rw [BitVec.getLsbD_xor, within.bit index clear, BitVec.ofNat_eq_ofNat, BitVec.getLsbD_zero, Bool.xor_false]

end AgreeOutside

theorem getLsbD_of_field {start length index : Nat} {word : BitVec width} {value : BitVec length}
    (field : word.extractLsb' start length = value) (below : index < length) :
    word.getLsbD (start + index) = value.getLsbD index := by
  rw [← field, BitVec.getLsbD_extractLsb', decide_eq_true below, Bool.true_and]

end Arm32.Bits
