import Arm32.Proofs.Bits.Operations

/-! The same work done in a wider word. The word is carried over, shifted and masked there, and the low bits are carried
back. As long as the other word is wider, no shift and no difference leaves it, and nothing that is lost on the way back
belongs to the answer. -/

namespace Arm32.Bits

variable {width wide index first last count : Nat} {value : BitVec width} {bit : Bool} {indices : List Nat}

/-- So many ones at the end of the word. -/
def checkedMask (wide count : Nat) : Option (BitVec wide) := do
  let limit ← checkedShiftLeft 1 count
  checkedSub limit 1

def carriedBit? (wide : Nat) (value : BitVec width) (index : Nat) : Option Bool := do
  guard (index < width)
  let moved ← checkedShiftRight (value.setWidth wide) index
  return moved &&& 1 == 1

def carriedSetBit? (wide : Nat) (value : BitVec width) (index : Nat) (bit : Bool) : Option (BitVec width) := do
  guard (index < width)
  let mask ← checkedShiftLeft 1 index
  let carried : BitVec wide := value.setWidth wide
  return (if bit then carried ||| mask else carried &&& ~~~mask).setWidth width

def carriedField? (wide : Nat) (value : BitVec width) (first last : Nat) : Option (BitVec width) := do
  guard (first + span first last ≤ width)
  let mask ← checkedMask wide (span first last)
  let moved ← checkedShiftRight (value.setWidth wide) first
  return (moved &&& mask).setWidth width

def carriedAllSetOf? (wide : Nat) (value : BitVec width) : List Nat → Option Bool
  | [] => some true
  | index :: rest => do
    let set ← carriedBit? wide value index
    if set then carriedAllSetOf? wide value rest else return false

/-- The sign is moved to the top of the wider word and comes down again over all the bits between. -/
def carriedSignExtended? (wide : Nat) (value : BitVec width) (count : Nat) : Option (BitVec width) := do
  guard (0 < count ∧ count ≤ width)
  let raised ← checkedShiftLeft (value.setWidth wide) (wide - count)
  let lowered ← checkedSignedShiftRight raised (wide - count)
  return lowered.setWidth width

/-- By way of a word of `wide` bits. -/
def carried (wide width : Nat) : Operations width where
  bit? := carriedBit? wide
  setBit? := carriedSetBit? wide
  field? := carriedField? wide
  allSet? value first last := carriedAllSetOf? wide value (List.range' first (span first last))
  signExtended? := carriedSignExtended? wide

theorem lowest_eq (positive : 0 < wide) (word : BitVec wide) : (word &&& 1 == 1) = word.getLsbD 0 := by
  have one : (1 : BitVec wide).toNat = 1 := Nat.mod_eq_of_lt (Nat.one_lt_two_pow (Nat.ne_of_gt positive))
  rw [Bool.eq_iff_iff, beq_iff_eq, ← BitVec.toNat_inj, BitVec.toNat_and, one, Nat.and_one_is_mod, ← BitVec.testBit_toNat,
    Nat.testBit_zero, decide_eq_true_iff]

theorem carriedBit?_eq (narrower : width < wide) : carriedBit? wide value index = bit? value index := by
  rw [carriedBit?, bit?]
  apply guard_bind_eq
  intro inside
  have within : index < wide := Nat.lt_trans inside narrower
  rw [checkedShiftRight_eq within, Option.bind_eq_bind, Option.bind_some, lowest_eq (Nat.zero_lt_of_lt within),
    BitVec.getLsbD_ushiftRight, Nat.add_zero, BitVec.getLsbD_setWidth, decide_eq_true within, Bool.true_and]
  rfl

theorem setWidth_marked (narrower : width < wide) :
    (if bit then value.setWidth wide ||| BitVec.twoPow wide index
      else value.setWidth wide &&& ~~~BitVec.twoPow wide index).setWidth width = setBit value index bit := by
  apply BitVec.eq_of_getLsbD_eq
  intro place below
  have within : place < wide := Nat.lt_trans below narrower
  cases bit <;> simp [setBit, below, within]

theorem carriedSetBit?_eq (narrower : width < wide) : carriedSetBit? wide value index bit = setBit? value index bit := by
  rw [carriedSetBit?, setBit?]
  apply guard_bind_eq
  intro inside
  rw [checkedShiftLeft_eq (Nat.lt_trans inside narrower), ← setWidth_marked narrower]
  rfl

theorem checkedMask_eq (within : count < wide) : checkedMask wide count = some (BitVec.ofNat wide (2 ^ count - 1)) := by
  have limit : (1 : BitVec wide) <<< count = BitVec.ofNat wide (2 ^ count) := by
    apply BitVec.eq_of_toNat_eq
    rw [BitVec.toNat_ofNat]
    exact BitVec.toNat_twoPow wide count
  rw [checkedMask, checkedShiftLeft_eq within, limit]
  exact checkedSub_ofNat (Nat.pow_lt_pow_right (by decide) within) Nat.one_le_two_pow

theorem toNat_masked (within : count < wide) (word : BitVec wide) :
    (word &&& BitVec.ofNat wide (2 ^ count - 1)).toNat = word.toNat % 2 ^ count := by
  have fits : 2 ^ count - 1 < 2 ^ wide := Nat.lt_of_le_of_lt (Nat.sub_le _ _) (Nat.pow_lt_pow_right (by decide) within)
  rw [BitVec.toNat_and, BitVec.toNat_ofNat, Nat.mod_eq_of_lt fits, Nat.and_two_pow_sub_one_eq_mod]

theorem carriedField?_eq (narrower : width < wide) : carriedField? wide value first last = field? value first last := by
  rw [carriedField?, field?]
  apply guard_bind_eq
  intro inside
  -- The first bit of an empty field may be one past the top, but not past the top of the wider word.
  have spanned : span first last < wide := by omega
  rw [checkedMask_eq spanned, checkedShiftRight_eq (show first < wide by omega)]
  simp only [Option.bind_eq_bind, Option.bind_some, Option.pure_def, Option.some.injEq]
  apply BitVec.eq_of_toNat_eq
  rw [toNat_field, BitVec.toNat_setWidth, toNat_masked spanned, BitVec.toNat_ushiftRight,
    BitVec.toNat_setWidth_of_le (Nat.le_of_lt narrower), Nat.shiftRight_eq_div_pow,
    Nat.mod_eq_of_lt (field_lt value first _)]

theorem carriedAllSetOf?_eq (narrower : width < wide) :
    carriedAllSetOf? wide value indices = allSetOf? value indices := by
  induction indices with
  | nil => rfl
  | cons index rest ih =>
      rw [carriedAllSetOf?, allSetOf?, carriedBit?_eq narrower, ih]
      cases bit? value index with
      | none => rfl
      | some set => cases set <;> rfl

theorem lowered_raised (positive : 0 < count) (within : count ≤ width) (narrower : width < wide) :
    ((value.setWidth wide <<< (wide - count)).sshiftRight (wide - count)).setWidth width =
      (value.setWidth count).signExtend width := by
  have sign : (value.setWidth wide <<< (wide - count)).msb = (value.setWidth count).msb := by
    rw [BitVec.msb_eq_getLsbD_last, BitVec.msb_eq_getLsbD_last, BitVec.getLsbD_shiftLeft, BitVec.getLsbD_setWidth,
      BitVec.getLsbD_setWidth, show wide - 1 - (wide - count) = count - 1 by omega]
    simp only [show wide - 1 < wide by omega, show ¬ wide - 1 < wide - count by omega, show count - 1 < wide by omega,
      show count - 1 < count by omega, decide_true, decide_false, Bool.not_false, Bool.true_and]
  apply BitVec.eq_of_getLsbD_eq
  intro index inside
  rw [BitVec.getLsbD_setWidth, BitVec.getLsbD_sshiftRight, BitVec.getLsbD_signExtend, sign]
  simp only [inside, show ¬ wide ≤ index by omega, decide_true, decide_false, Bool.not_false, Bool.true_and]
  -- Bits below `count` come back to their places, and the sign fills those above.
  by_cases low : index < count
  · rw [if_pos low, if_pos (by omega), BitVec.getLsbD_shiftLeft, BitVec.getLsbD_setWidth, BitVec.getLsbD_setWidth,
      Nat.add_sub_cancel_left]
    simp only [low, show wide - count + index < wide by omega, show ¬ wide - count + index < wide - count by omega,
      show index < wide by omega, decide_true, decide_false, Bool.not_false, Bool.true_and]
  · rw [if_neg low, if_neg (by omega)]

theorem carriedSignExtended?_eq (narrower : width < wide) :
    carriedSignExtended? wide value count = signExtended? value count := by
  rw [carriedSignExtended?, signExtended?]
  apply guard_bind_eq
  rintro ⟨positive, within⟩
  have unused : wide - count < wide := Nat.sub_lt (Nat.zero_lt_of_lt narrower) positive
  rw [checkedShiftLeft_eq unused, Option.bind_eq_bind, Option.bind_some, checkedSignedShiftRight_eq unused,
    ← lowered_raised positive within narrower]
  rfl

theorem carried_eq_inPlace (narrower : width < wide) : carried wide width = inPlace width := by
  rw [carried, inPlace, Operations.mk.injEq]
  refine ⟨?_, ?_, ?_, ?_, ?_⟩
  · funext value index
    exact carriedBit?_eq narrower
  · funext value index bit
    exact carriedSetBit?_eq narrower
  · funext value first last
    exact carriedField?_eq narrower
  · funext value first last
    exact carriedAllSetOf?_eq narrower
  · funext value count
    exact carriedSignExtended?_eq narrower

/-- One word of 128 bits serves all the widths below it. There the operations are those on the word itself, they are
exact, and a word put together again bit by bit is the same word. -/
theorem carried_exact (narrower : width < 128) :
    carried 128 width = inPlace width ∧ (inPlace width).Exact ∧
      ∀ source target indices, (∀ index, index ∈ indices ↔ index < width) →
        (inPlace width).copy? source indices target = some source :=
  ⟨carried_eq_inPlace narrower, exact_inPlace width, fun _ _ _ listed => (exact_inPlace width).copy?_eq listed⟩

/-- A field as long as the longest of the words, and a negative byte with other bits above it. -/
theorem carried_exact_longest :
    64 < 128 ∧ (carried 128 64).field? 0xfedcba9876543210 0 63 = some 0xfedcba9876543210 ∧
      (carried 128 64).signExtended? 0x1280 8 = some 0xffffffffffffff80 ∧
      carried 128 64 = inPlace 64 ∧ (inPlace 64).Exact ∧
      (inPlace 64).copy? 0xfedcba9876543210 (List.range 64) 0 = some 0xfedcba9876543210 := by
  obtain ⟨same, exact, copied⟩ := carried_exact (show 64 < 128 by decide)
  exact ⟨by decide, by decide, by decide, same, exact, copied _ _ _ fun _ => List.mem_range⟩

end Arm32.Bits
