import Arm32.Vfp.Arithmetic
import Mathlib

/-! The numbers that floating-point bits stand for, and how they compare. Bits are a sign, a stored exponent and a
fraction. Numbers of one precision compare as their exponents do, and as their significands where these are equal. -/

namespace Arm32.Vfp

open Float.Model (UnpackedFloat)
open Float.Model.UnpackedFloat (Sign unpackExponent unpackMantissa unpackSign)

/-- The rational numbers, with an infinity at either end. -/
abbrev Number := WithBot (WithTop ℚ)

namespace Number

def ofRat (value : ℚ) : Number := ((value : WithTop ℚ) : WithBot (WithTop ℚ))

/-- How two numbers compare. There may be none, and then they do not. -/
def order? : Option Number → Option Number → Option Ordering
  | some first, some second => some (cmp first second)
  | _, _ => none

theorem ofRat_strictMono : StrictMono ofRat := by
  intro first second less
  exact WithBot.coe_lt_coe.mpr (WithTop.coe_lt_coe.mpr less)

theorem bot_lt_ofRat (value : ℚ) : ⊥ < ofRat value := WithBot.bot_lt_coe _

theorem ofRat_lt_top (value : ℚ) : ofRat value < ⊤ := WithBot.coe_lt_coe.mpr (WithTop.coe_lt_top value)

theorem order?_of_lt {first second : Number} (less : first < second) : order? (some first) (some second) = some .lt :=
  congrArg some less.cmp_eq_lt

theorem order?_of_gt {first second : Number} (greater : second < first) :
    order? (some first) (some second) = some .gt :=
  congrArg some greater.cmp_eq_gt

theorem order?_self (number : Number) : order? (some number) (some number) = some .eq :=
  congrArg some (cmp_self_eq_eq number)

theorem zero_lt_ofRat {mantissa : Nat} (exponent : ℤ) (positive : 0 < mantissa) :
    ofRat 0 < ofRat (mantissa * 2 ^ exponent) :=
  ofRat_strictMono (mul_pos (Nat.cast_pos.mpr positive) (zpow_pos two_pos _))

theorem ofRat_lt_zero {mantissa : Nat} (exponent : ℤ) (positive : 0 < mantissa) :
    ofRat (-(mantissa * 2 ^ exponent)) < ofRat 0 :=
  ofRat_strictMono (neg_neg_of_pos (mul_pos (Nat.cast_pos.mpr positive) (zpow_pos two_pos _)))

/-- What an unpacked float stands for. -/
def ofUnpacked? : UnpackedFloat → Option Number
  | .notANumber => none
  | .infinity .negative => some ⊥
  | .infinity .positive => some ⊤
  | .zero _ => some (ofRat 0)
  | .finite .negative mantissa exponent _ => some (ofRat (-(mantissa * 2 ^ exponent)))
  | .finite .positive mantissa exponent _ => some (ofRat (mantissa * 2 ^ exponent))

end Number

namespace Precision

variable {precision : Precision}

def fractionBits : Precision → Nat
  | single => 23
  | double => 52

def exponentBits : Precision → Nat
  | single => 8
  | double => 11

/-- What is added to an exponent before it is stored. -/
def bias : Precision → Nat
  | single => 127
  | double => 1023

theorem mantissaBits_format : precision.format.mantissaBitsWithoutImplicit = precision.fractionBits := by
  cases precision <;> rfl

theorem exponentBits_format : precision.format.exponentBits = precision.exponentBits := by
  cases precision <;> rfl

theorem exponentBias_format : precision.format.exponentBias = precision.bias := by
  cases precision <;> rfl

/-- The exponent of the last fraction bit. -/
def lastExponent (precision : Precision) (stored : Nat) : ℤ := stored - precision.bias - precision.fractionBits

namespace Bits

def fraction (bits : precision.Bits) : Nat := bits.toNat % 2 ^ precision.fractionBits

def storedExponent (bits : precision.Bits) : Nat :=
  bits.toNat / 2 ^ precision.fractionBits % 2 ^ precision.exponentBits

def isNegative (bits : precision.Bits) : Bool := bits.msb

/-- The number without its sign. There is a one in front of the fraction, unless the stored exponent is zero. -/
def magnitude (bits : precision.Bits) : ℚ :=
  if bits.storedExponent = 0 then bits.fraction * 2 ^ precision.lastExponent 1
  else (2 ^ precision.fractionBits + bits.fraction) * 2 ^ precision.lastExponent bits.storedExponent

/-- The number that the bits stand for, if they do. The greatest stored exponent is that of the infinities, and of what
is no number. -/
def number? (bits : precision.Bits) : Option Number :=
  if bits.storedExponent = 2 ^ precision.exponentBits - 1 then
    if bits.fraction = 0 then some (if bits.isNegative then ⊥ else ⊤) else none
  else some (.ofRat (if bits.isNegative then -bits.magnitude else bits.magnitude))

theorem toNat_unpackMantissa (bits : precision.Bits) : (unpackMantissa bits).toNat = bits.fraction := by
  have whole : precision.format.mantissaBitsWithoutImplicit - 1 + 1 = precision.fractionBits := by
    cases precision <;> rfl
  rw [unpackMantissa, BitVec.toNat_cast, BitVec.extractLsb_toNat, Nat.shiftRight_zero, Nat.sub_zero, whole, fraction]

theorem toNat_unpackExponent (bits : precision.Bits) : (unpackExponent bits).toNat = bits.storedExponent := by
  have whole : precision.format.mantissaBitsWithoutImplicit + precision.format.exponentBits - 1 -
      precision.format.mantissaBitsWithoutImplicit + 1 = precision.exponentBits := by
    cases precision <;> rfl
  rw [unpackExponent, BitVec.toNat_cast, BitVec.extractLsb_toNat, whole, mantissaBits_format,
    Nat.shiftRight_eq_div_pow, storedExponent]

theorem sign_unpackSign (bits : precision.Bits) :
    Sign.ofBitVec (unpackSign bits) = if bits.isNegative then .negative else .positive := by
  have top : (unpackSign bits).getLsbD 0 = bits.isNegative := by
    rw [unpackSign, BitVec.getLsbD_cast, isNegative, BitVec.msb_eq_getLsbD_last, BitVec.getLsbD_extractLsb]
    cases precision <;> simp [format]
  have one (sign : BitVec 1) : Sign.ofBitVec sign = if sign.getLsbD 0 then .negative else .positive := by
    rcases BitVec.eq_zero_or_eq_one sign with rfl | rfl <;> rfl
  rw [one, top]

/-- The float that the bits unpack to, told from their fields. -/
inductive Unpacks (bits : precision.Bits) : UnpackedFloat → Prop where
  | infinity {sign : Sign} (greatest : bits.storedExponent = 2 ^ precision.exponentBits - 1) (empty : bits.fraction = 0)
      (signed : sign = if bits.isNegative then .negative else .positive) : Unpacks bits (.infinity sign)
  | notANumber (greatest : bits.storedExponent = 2 ^ precision.exponentBits - 1) (filled : bits.fraction ≠ 0) :
      Unpacks bits .notANumber
  | zero {sign : Sign} (least : bits.storedExponent = 0) (empty : bits.fraction = 0) : Unpacks bits (.zero sign)
  | finite {sign : Sign} {mantissa : Nat} {exponent : ℤ} {positive : 0 < mantissa}
      (most : bits.storedExponent ≠ 2 ^ precision.exponentBits - 1)
      (scaled : bits.storedExponent = 0 ∧ mantissa = bits.fraction ∧ exponent = precision.lastExponent 1 ∨
        bits.storedExponent ≠ 0 ∧ mantissa = 2 ^ precision.fractionBits + bits.fraction ∧
          exponent = precision.lastExponent bits.storedExponent)
      (signed : sign = if bits.isNegative then .negative else .positive) :
      Unpacks bits (.finite sign mantissa exponent positive)

theorem unpacks_value (bits : precision.Bits) : bits.Unpacks bits.value := by
  have greatest : unpackExponent bits = -1#_ ↔ bits.storedExponent = 2 ^ precision.exponentBits - 1 := by
    rw [← BitVec.toNat_inj, toNat_unpackExponent, BitVec.neg_one_eq_allOnes, BitVec.toNat_allOnes,
      exponentBits_format]
  have least : unpackExponent bits = 0#_ ↔ bits.storedExponent = 0 := by
    rw [← BitVec.toNat_inj, toNat_unpackExponent, BitVec.toNat_ofNat, Nat.zero_mod]
  have nothing : unpackMantissa bits = 0#_ ↔ bits.fraction = 0 := by
    rw [← BitVec.toNat_inj, toNat_unpackMantissa, BitVec.toNat_ofNat, Nat.zero_mod]
  rw [value, UnpackedFloat.unpack]
  split
  · next ones =>
      split
      · next empty => exact .infinity (greatest.mp ones) (nothing.mp empty) bits.sign_unpackSign
      · next filled => exact .notANumber (greatest.mp ones) (mt nothing.mpr filled)
  · next ordinary =>
      split
      · next zeros =>
          split
          · next empty => exact .zero (least.mp zeros) (nothing.mp empty)
          · next filled =>
              refine .finite (mt greatest.mpr ordinary) (.inl ⟨least.mp zeros, bits.toNat_unpackMantissa, ?_⟩)
                bits.sign_unpackSign
              rw [toNat_unpackExponent, least.mp zeros, exponentBias_format, mantissaBits_format, lastExponent]
              omega
      · next above =>
          refine .finite (mt greatest.mpr ordinary) (.inr ⟨mt least.mpr above, ?_, ?_⟩) bits.sign_unpackSign
          · rw [BitVec.toNat_append, ← Nat.shiftLeft_add_eq_or_of_lt (BitVec.isLt _), toNat_unpackMantissa,
              mantissaBits_format]
            simp [Nat.shiftLeft_eq]
          · rw [toNat_unpackExponent, exponentBias_format, mantissaBits_format, lastExponent]
            omega

theorem number?_eq (bits : precision.Bits) : bits.number? = Number.ofUnpacked? bits.value := by
  have unpacks := bits.unpacks_value
  generalize bits.value = value at unpacks
  rw [number?]
  cases unpacks with
  | infinity greatest empty signed =>
      rw [if_pos greatest, if_pos empty, signed]
      cases bits.isNegative <;> rfl
  | notANumber greatest filled =>
      rw [if_pos greatest, if_neg filled]
      rfl
  | zero least empty =>
      have most : bits.storedExponent ≠ 2 ^ precision.exponentBits - 1 := by
        rw [least]
        cases precision <;> decide
      rw [if_neg most, magnitude, if_pos least, empty]
      cases bits.isNegative <;> simp [Number.ofUnpacked?]
  | finite most scaled signed =>
      rw [if_neg most, magnitude]
      rcases scaled with ⟨least, rfl, rfl⟩ | ⟨above, rfl, rfl⟩
      · rw [if_pos least, signed]
        cases bits.isNegative <;> rfl
      · have significand : ((2 ^ precision.fractionBits + bits.fraction : Nat) : ℚ) =
            2 ^ precision.fractionBits + bits.fraction := by push_cast; rfl
        rw [if_neg above, signed, ← significand]
        cases bits.isNegative <;> rfl

end Bits

/-- A float whose significand starts at the leading place, unless its exponent is the least there is. -/
def Canonical (precision : Precision) : UnpackedFloat → Prop
  | .finite _ mantissa exponent _ =>
    mantissa < 2 ^ (precision.fractionBits + 1) ∧
      (exponent = precision.lastExponent 1 ∨
        precision.lastExponent 1 ≤ exponent ∧ 2 ^ precision.fractionBits ≤ mantissa)
  | _ => True

theorem Bits.canonical_value (bits : precision.Bits) : precision.Canonical bits.value := by
  have unpacks := bits.unpacks_value
  generalize bits.value = value at unpacks
  have below : bits.fraction < 2 ^ precision.fractionBits := Nat.mod_lt _ (Nat.two_pow_pos _)
  have twice : 2 ^ (precision.fractionBits + 1) = 2 ^ precision.fractionBits + 2 ^ precision.fractionBits := by
    rw [Nat.pow_succ, Nat.mul_two]
  cases unpacks with
  | infinity | notANumber | zero => trivial
  | finite most scaled signed =>
      rcases scaled with ⟨least, rfl, rfl⟩ | ⟨above, rfl, rfl⟩
      · exact ⟨by omega, .inl rfl⟩
      · refine ⟨by omega, .inr ⟨?_, Nat.le_add_right _ _⟩⟩
        simp only [lastExponent]
        omega

/-- The greater exponent makes the greater number. -/
theorem Canonical.finite_lt {sign other : Sign} {small large : Nat} {low high : ℤ} {smallPos : 0 < small}
    {largePos : 0 < large} (first : precision.Canonical (.finite sign small low smallPos))
    (second : precision.Canonical (.finite other large high largePos)) (below : low < high) :
    (small : ℚ) * 2 ^ low < large * 2 ^ high := by
  obtain ⟨bounded, scaled⟩ := first
  have leading : 2 ^ precision.fractionBits ≤ large := by
    rcases second.2 with least | ⟨-, leading⟩
    · omega
    · exact leading
  have next : low + 1 ≤ high := below
  calc (small : ℚ) * 2 ^ low
    _ < 2 ^ (precision.fractionBits + 1) * 2 ^ low := by
        refine mul_lt_mul_of_pos_right ?_ (zpow_pos two_pos _)
        exact_mod_cast bounded
    _ = 2 ^ precision.fractionBits * 2 ^ (low + 1) := by
        rw [pow_succ, zpow_add_one₀ two_ne_zero, mul_assoc, mul_comm 2]
    _ ≤ large * 2 ^ high := by
        refine mul_le_mul ?_ (zpow_le_zpow_right₀ one_le_two next) (zpow_pos two_pos _).le (Nat.cast_nonneg _)
        exact_mod_cast leading

theorem Canonical.cmp_finite {sign other : Sign} {mantissa second : Nat} {exponent high : ℤ}
    {mantissaPos : 0 < mantissa} {secondPos : 0 < second}
    (left : precision.Canonical (.finite sign mantissa exponent mantissaPos))
    (right : precision.Canonical (.finite other second high secondPos)) :
    cmp ((mantissa : ℚ) * 2 ^ exponent) (second * 2 ^ high) =
      (compare exponent high).then (compare mantissa second) := by
  rcases lt_trichotomy exponent high with less | rfl | greater
  · rw [(left.finite_lt right less).cmp_eq_lt, compare_lt_iff_lt.mpr less]
    rfl
  · rw [compare_eq_iff_eq.mpr rfl]
    show _ = compare mantissa second
    rw [cmp_mul_pos_right (zpow_pos two_pos _), Nat.strictMono_cast.cmp_map_eq, cmp_eq_compare]
  · rw [(right.finite_lt left greater).cmp_eq_gt, compare_gt_iff_gt.mpr greater]
    rfl

theorem Canonical.compare_finite {sign other : Sign} {mantissa second : Nat} {exponent high : ℤ}
    {mantissaPos : 0 < mantissa} {secondPos : 0 < second}
    (left : precision.Canonical (.finite sign mantissa exponent mantissaPos))
    (right : precision.Canonical (.finite other second high secondPos)) :
    UnpackedFloat.compare (.finite sign mantissa exponent mantissaPos) (.finite other second high secondPos) =
      Number.order? (Number.ofUnpacked? (.finite sign mantissa exponent mantissaPos))
        (Number.ofUnpacked? (.finite other second high secondPos)) := by
  have magnitudes := left.cmp_finite right
  cases sign with
  | negative =>
      cases other with
      | negative =>
          have reversed : cmp (Number.ofRat (-(mantissa * 2 ^ exponent))) (Number.ofRat (-(second * 2 ^ high))) =
              (cmp ((mantissa : ℚ) * 2 ^ exponent) (second * 2 ^ high)).swap := by
            rw [Number.ofRat_strictMono.cmp_map_eq, cmp_swap]
            exact StrictAnti.cmp_map_eq (fun _ _ => neg_lt_neg) _ _
          exact congrArg some (reversed.trans (congrArg Ordering.swap magnitudes)).symm
      | positive =>
          exact (Number.order?_of_lt ((Number.ofRat_lt_zero exponent mantissaPos).trans
            (Number.zero_lt_ofRat high secondPos))).symm
  | positive =>
      cases other with
      | negative =>
          exact (Number.order?_of_gt ((Number.ofRat_lt_zero high secondPos).trans
            (Number.zero_lt_ofRat exponent mantissaPos))).symm
      | positive => exact congrArg some ((Number.ofRat_strictMono.cmp_map_eq _ _).trans magnitudes).symm

end Precision

variable {precision : Precision} {first second : UnpackedFloat}

/-- Floats of one precision compare as the numbers they stand for. -/
theorem compare_eq_order? (left : precision.Canonical first) (right : precision.Canonical second) :
    UnpackedFloat.compare first second = Number.order? (Number.ofUnpacked? first) (Number.ofUnpacked? second) := by
  cases first with
  | notANumber => cases second <;> rfl
  | infinity sign =>
      cases sign with
      | negative =>
          cases second with
          | notANumber => rfl
          | infinity other =>
              cases other with
              | negative => exact (Number.order?_self ⊥).symm
              | positive => exact (Number.order?_of_lt bot_lt_top).symm
          | zero other => exact (Number.order?_of_lt (Number.bot_lt_ofRat 0)).symm
          | finite other => cases other <;> exact (Number.order?_of_lt (Number.bot_lt_ofRat _)).symm
      | positive =>
          cases second with
          | notANumber => rfl
          | infinity other =>
              cases other with
              | negative => exact (Number.order?_of_gt bot_lt_top).symm
              | positive => exact (Number.order?_self ⊤).symm
          | zero other => exact (Number.order?_of_gt (Number.ofRat_lt_top 0)).symm
          | finite other => cases other <;> exact (Number.order?_of_gt (Number.ofRat_lt_top _)).symm
  | zero sign =>
      cases second with
      | notANumber => rfl
      | infinity other =>
          cases other with
          | negative => exact (Number.order?_of_gt (Number.bot_lt_ofRat 0)).symm
          | positive => exact (Number.order?_of_lt (Number.ofRat_lt_top 0)).symm
      | zero other => exact (Number.order?_self _).symm
      | finite other mantissa exponent positive =>
          cases other with
          | negative => exact (Number.order?_of_gt (Number.ofRat_lt_zero exponent positive)).symm
          | positive => exact (Number.order?_of_lt (Number.zero_lt_ofRat exponent positive)).symm
  | finite sign mantissa exponent positive =>
      cases second with
      | notANumber => cases sign <;> rfl
      | infinity other =>
          cases other with
          | negative => cases sign <;> exact (Number.order?_of_gt (Number.bot_lt_ofRat _)).symm
          | positive => cases sign <;> exact (Number.order?_of_lt (Number.ofRat_lt_top _)).symm
      | zero other =>
          cases sign with
          | negative => exact (Number.order?_of_lt (Number.ofRat_lt_zero exponent positive)).symm
          | positive => exact (Number.order?_of_gt (Number.zero_lt_ofRat exponent positive)).symm
      | finite other significand power more => exact left.compare_finite right

/-- Bits of one precision compare as the numbers they stand for. -/
theorem compareBits_eq (first second : precision.Bits) :
    compareBits first second = comparisonFlags (Number.order? first.number? second.number?) := by
  rw [compareBits, compare_eq_order? first.canonical_value second.canonical_value, first.number?_eq, second.number?_eq]

end Arm32.Vfp
