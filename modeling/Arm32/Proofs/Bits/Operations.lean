import Arm32.Proofs.Arithmetic.Flags
import Arm32.Proofs.Safety.Checks

/-! Work on the bits of a word. What is asked of it is said of the numbers that the words stand for, and from that a
word copied bit by bit is the word. The operations of this library do what is asked. -/

namespace Arm32.Bits

variable {width index first last count : Nat} {value : BitVec width} {indices : List Nat}

/-- The number that so many bits stand for when the highest of them is its sign. -/
def signedNumber (count bits : Nat) : Int := if 2 * bits < 2 ^ count then bits else bits - (2 ^ count : Nat)

/-- One way to work on bits and bit fields. -/
structure Operations (width : Nat) where
  bit? : BitVec width → Nat → Option Bool
  setBit? : BitVec width → Nat → Bool → Option (BitVec width)
  field? : BitVec width → Nat → Nat → Option (BitVec width)
  allSet? : BitVec width → Nat → Nat → Option Bool
  signExtended? : BitVec width → Nat → Option (BitVec width)

/-- The operations of this library, on the word itself. -/
def inPlace (width : Nat) : Operations width := { bit?, setBit?, field?, allSet?, signExtended? }

namespace Operations

variable {operations : Operations width} {source target : BitVec width}

/-- Copies the listed bits, one after the other. -/
def copy? (operations : Operations width) (source : BitVec width) : List Nat → BitVec width → Option (BitVec width)
  | [], target => some target
  | index :: rest, target => do
    let bit ← operations.bit? source index
    let changed ← operations.setBit? target index bit
    operations.copy? source rest changed

/-- Every operation has an answer inside the word, and it is the right one. A field with its ends in the wrong order
has no bits, so it is zero and all of its bits are set. -/
structure Exact (operations : Operations width) : Prop where
  bit : ∀ (value : BitVec width) index, index < width →
    operations.bit? value index = some (decide (value.toNat / 2 ^ index % 2 = 1))
  setBit : ∀ value index bit, index < width → ∃ changed, operations.setBit? value index bit = some changed ∧
    operations.bit? changed index = some bit ∧
    ∀ other, other ≠ index → operations.bit? changed other = operations.bit? value other
  field : ∀ (value : BitVec width) first last, first + (last + 1 - first) ≤ width →
    ∃ field, operations.field? value first last = some field ∧
      field.toNat = value.toNat / 2 ^ first % 2 ^ (last + 1 - first)
  allSet : ∀ value first last, (first ≤ last → last < width) →
    ∃ answer, operations.allSet? value first last = some answer ∧
      (answer = true ↔ ∀ index, first ≤ index → index ≤ last → operations.bit? value index = some true)
  -- One answer for all words with the same low bits.
  signExtended : ∀ (value : BitVec width) count, 0 < count → count ≤ width →
    ∃ extended, extended.toInt = signedNumber count (value.toNat % 2 ^ count) ∧
      ∀ other : BitVec width, other.toNat % 2 ^ count = value.toNat % 2 ^ count →
        operations.signExtended? other count = some extended

namespace Exact

theorem eq_of_bits (exact : operations.Exact)
    (same : ∀ index, index < width → operations.bit? source index = operations.bit? target index) : source = target := by
  apply BitVec.eq_of_getLsbD_eq
  intro index inside
  have bits := same index inside
  rw [exact.bit source index inside, exact.bit target index inside, Option.some.injEq,
    ← Nat.testBit_eq_decide_div_mod_eq, ← Nat.testBit_eq_decide_div_mod_eq, BitVec.testBit_toNat,
    BitVec.testBit_toNat] at bits
  exact bits

theorem exists_copy (exact : operations.Exact) (inside : ∀ index ∈ indices, index < width) :
    ∃ copied, operations.copy? source indices target = some copied ∧
      ∀ index, operations.bit? copied index =
        if index ∈ indices then operations.bit? source index else operations.bit? target index := by
  induction indices generalizing target with
  | nil => exact ⟨target, rfl, fun index => (if_neg List.not_mem_nil).symm⟩
  | cons place rest ih =>
      have within : place < width := inside place List.mem_cons_self
      obtain ⟨bit, read⟩ : ∃ bit, operations.bit? source place = some bit := ⟨_, exact.bit source place within⟩
      obtain ⟨changed, set, here, elsewhere⟩ := exact.setBit target place bit within
      obtain ⟨copied, run, bits⟩ : ∃ copied, operations.copy? source rest changed = some copied ∧ _ :=
        ih fun index member => inside index (List.mem_cons_of_mem place member)
      have step : operations.copy? source (place :: rest) target = operations.copy? source rest changed := by
        simp only [copy?, read, set, Option.bind_eq_bind, Option.bind_some]
      rw [← read] at here
      refine ⟨copied, step.trans run, ?_⟩
      intro index
      rw [bits index]
      -- A bit that is not copied later is the one just written, or one of the target.
      by_cases later : index ∈ rest
      · rw [if_pos later, if_pos (List.mem_cons_of_mem place later)]
      · rw [if_neg later]
        by_cases same : index = place
        · rw [same, if_pos List.mem_cons_self, here]
        · rw [if_neg (by simp [same, later]), elsewhere index same]

/-- In whatever order its bits are copied, and however often, the copy is the word. -/
theorem copy?_eq (exact : operations.Exact) (listed : ∀ index, index ∈ indices ↔ index < width) :
    operations.copy? source indices target = some source := by
  obtain ⟨copied, run, bits⟩ : ∃ copied, operations.copy? source indices target = some copied ∧ _ :=
    exact.exists_copy fun index member => (listed index).mp member
  have same : copied = source := exact.eq_of_bits fun index inside => by
    rw [bits index, if_pos ((listed index).mpr inside)]
  rw [run, same]

end Exact

end Operations

theorem bit?_eq_number (inside : index < width) :
    bit? value index = some (decide (value.toNat / 2 ^ index % 2 = 1)) := by
  rw [bit?_eq inside, ← BitVec.testBit_toNat, Nat.testBit_eq_decide_div_mod_eq]

theorem bit?_setBit {bit : Bool} (inside : index < width) (place : Nat) :
    bit? (setBit value index bit) place = if place = index then some bit else bit? value place := by
  by_cases same : place = index
  · rw [if_pos same, bit?, same, if_pos inside, getLsbD_setBit inside, if_pos rfl]
  · rw [if_neg same, bit?, bit?, getLsbD_setBit inside, if_neg same]

theorem field_lt (value : BitVec width) (first count : Nat) : value.toNat / 2 ^ first % 2 ^ count < 2 ^ width :=
  calc
    value.toNat / 2 ^ first % 2 ^ count ≤ value.toNat / 2 ^ first := Nat.mod_le _ _
    _ ≤ value.toNat := Nat.div_le_self _ _
    _ < 2 ^ width := value.isLt

theorem toNat_field : ((value.extractLsb' first count).setWidth width).toNat = value.toNat / 2 ^ first % 2 ^ count := by
  rw [BitVec.toNat_setWidth, BitVec.extractLsb'_toNat, Nat.shiftRight_eq_div_pow,
    Nat.mod_eq_of_lt (field_lt value first count)]

theorem allSetOf?_eq_some_true_iff :
    allSetOf? value indices = some true ↔ ∀ index ∈ indices, bit? value index = some true := by
  induction indices with
  | nil => simp [allSetOf?]
  | cons index rest ih =>
      cases read : bit? value index with
      | none => simp [allSetOf?, read]
      | some set => cases set <;> simp [allSetOf?, read, ih]

theorem exists_allSetOf? (inside : ∀ index ∈ indices, index < width) : ∃ answer, allSetOf? value indices = some answer := by
  induction indices with
  | nil => exact ⟨true, rfl⟩
  | cons index rest ih =>
      have read : bit? value index = some (value.getLsbD index) := bit?_eq (inside index List.mem_cons_self)
      obtain ⟨answer, later⟩ := ih fun other member => inside other (List.mem_cons_of_mem index member)
      cases set : value.getLsbD index with
      | false => exact ⟨false, by simp only [allSetOf?, read, set]⟩
      | true => exact ⟨answer, by simp only [allSetOf?, read, set, later]⟩

theorem mem_span_iff : index ∈ List.range' first (span first last) ↔ first ≤ index ∧ index ≤ last := by
  rw [List.mem_range'_1, span]
  omega

theorem allSet?_eq_some_true_iff :
    allSet? value first last = some true ↔ ∀ index, first ≤ index → index ≤ last → bit? value index = some true := by
  rw [allSet?, allSetOf?_eq_some_true_iff]
  simp only [mem_span_iff, and_imp]

theorem exists_allSet? (inside : first ≤ last → last < width) : ∃ answer, allSet? value first last = some answer := by
  apply exists_allSetOf?
  intro index member
  obtain ⟨low, high⟩ := mem_span_iff.mp member
  exact Nat.lt_of_le_of_lt high (inside (Nat.le_trans low high))

theorem toInt_signExtended (within : count ≤ width) :
    ((value.setWidth count).signExtend width).toInt = signedNumber count (value.toNat % 2 ^ count) := by
  rw [BitVec.toInt_signExtend_of_le within, BitVec.toInt_eq_toNat_cond, BitVec.toNat_setWidth, signedNumber]

theorem setWidth_eq_of_mod_eq {other : BitVec width} (same : other.toNat % 2 ^ count = value.toNat % 2 ^ count) :
    other.setWidth count = value.setWidth count := by
  apply BitVec.eq_of_toNat_eq
  rw [BitVec.toNat_setWidth, BitVec.toNat_setWidth, same]

theorem exact_inPlace (width : Nat) : (inPlace width).Exact where
  bit value index inside := bit?_eq_number inside
  setBit value index bit inside := by
    refine ⟨setBit value index bit, setBit?_eq inside, ?_, ?_⟩
    · exact (bit?_setBit inside index).trans (if_pos rfl)
    · intro other different
      exact (bit?_setBit inside other).trans (if_neg different)
  field value first last inside := ⟨_, if_pos inside, toNat_field⟩
  allSet value first last inside := by
    obtain ⟨answer, found⟩ : ∃ answer, allSet? value first last = some answer := exists_allSet? inside
    refine ⟨answer, found, ?_⟩
    rw [← Option.some.injEq, ← found]
    exact allSet?_eq_some_true_iff
  signExtended value count positive within := by
    refine ⟨_, toInt_signExtended within, ?_⟩
    intro other same
    rw [← setWidth_eq_of_mod_eq same]
    exact if_pos ⟨positive, within⟩

end Arm32.Bits
