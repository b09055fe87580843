import Mathlib.Data.List.Nodup
import Arm32.Proofs.Safety.Vfp
import Arm32.Proofs.Vector.Banks

/-! The numbers that a short vector goes through. They are found without a check that fails, they name slots, and each
operand goes round its own bank, two or four at a time if the elements are that far apart. -/

namespace Arm32.Vfp

variable {slot : Slot} {number step length places : Nat} {extension : Bool} {first : Indices}

theorem Slot.toNat_index (slot : Slot) : slot.index.toNat = slot.toNat := BitVec.toNat_setWidth_of_le (by decide)

theorem Slot.index_injective : Function.Injective Slot.index := by
  intro slot other same
  refine BitVec.eq_of_toNat_eq ?_
  rw [← slot.toNat_index, ← other.toNat_index, same]

namespace Indices

/-- All of them name slots. -/
structure Named (indices : Indices) : Prop where
  fd : indices.fd.toNat < 32
  fn : indices.fn.toNat < 32
  fm : indices.fm.toNat < 32

def slots (indices : Indices) : Operands :=
  { fd := indices.fd.setWidth 5
    fn := indices.fn.setWidth 5
    fm := indices.fm.setWidth 5 }

theorem indices_slots (named : first.Named) : first.slots.indices = first := by
  have back {index : Index} (below : index.toNat < 32) : Slot.index (index.setWidth 5) = index := by
    refine BitVec.eq_of_toNat_eq ?_
    rw [Slot.toNat_index, BitVec.toNat_setWidth, Nat.mod_eq_of_lt below]
  simp only [slots, Operands.indices, back named.fd, back named.fn, back named.fm]

theorem named_indices (operands : Operands) : operands.indices.Named := by
  constructor <;> exact (Slot.toNat_index _).symm ▸ BitVec.isLt _

end Indices

/-- An index in the same bank of eight, so many places further round it. -/
structure GoneRound (start : Index) (places : Nat) (index : Index) : Prop where
  bank : index.toNat / 8 = start.toNat / 8
  place : index.toNat % 8 = (start.toNat + places) % 8

theorem goneRound_further (slot : Slot) (places : Nat) : GoneRound slot.index places (slot.further places).index := by
  constructor <;> rw [Slot.toNat_index, Slot.toNat_index, Slot.toNat_further] <;> omega

/-- A bank has an even number of slots, so nothing changes sides on the way round. -/
theorem GoneRound.parity {start index : Index} (round : GoneRound start places index) (even : 2 ∣ places) :
    index.toNat % 2 = start.toNat % 2 := by
  have place := round.place
  omega

/-- Where an element lies whose registers are so many places behind those of the first. -/
structure Indices.Reaches (first : Indices) (extension : Bool) (places : Nat) (element : Indices) : Prop where
  named : element.Named
  fd : GoneRound first.fd places element.fd
  fn : if extension then element.fn = first.fn else GoneRound first.fn places element.fn
  fm : if first.fm.toNat < 8 then element.fm = first.fm else GoneRound first.fm places element.fm

structure Indices.SameParity (first element : Indices) : Prop where
  fd : element.fd.toNat % 2 = first.fd.toNat % 2
  fn : element.fn.toNat % 2 = first.fn.toNat % 2
  fm : element.fm.toNat % 2 = first.fm.toNat % 2

theorem Operands.reaches_element (first : Operands) (step number : Nat) (extension : Bool) :
    first.indices.Reaches extension (number * step) (first.element step extension number).indices where
  named := Indices.named_indices _
  fd := goneRound_further first.fd _
  fn := by
    cases extension with
    | true => rfl
    | false => exact goneRound_further first.fn _
  fm := by
    simp only [indices, element, Slot.toNat_index]
    split
    · rfl
    · exact goneRound_further first.fm _

theorem Indices.Reaches.sameParity {element : Indices} (reached : first.Reaches extension places element)
    (even : 2 ∣ places) : first.SameParity element where
  fd := reached.fd.parity even
  fn := by
    have round := reached.fn
    cases extension with
    | true => exact congrArg (·.toNat % 2) round
    | false => exact round.parity even
  fm := by
    have round := reached.fm
    split at round
    · rw [round]
    · exact round.parity even

theorem nodup_destinations (first : Operands) (extension : Bool) (some_step : 0 < step) (fits : length * step ≤ 8) :
    ((vectorOperands length step extension first).map (·.fd)).Nodup := by
  rw [vectorOperands_eq, List.map_map, List.Nodup, List.pairwise_map]
  refine List.Pairwise.imp_of_mem ?_ (List.pairwise_lt_range (n := length))
  intro near far _ within order same
  have apart : ¬ Slot.Shares .single (first.element step extension near).fd (first.element step extension far).fd :=
    first.element_apart some_step ⟨step, (Nat.one_mul step).symm⟩ fits order (List.mem_range.mp within)
  exact apart (congrArg (fun slot : Slot => slot.toNat / Precision.single.words) same)

/-- The numbers of a vector as long as is asked for, the operands of which go round their banks step by step. -/
theorem checkedVector_goes_round (named : first.Named) (some_step : 0 < step) (small : step ≤ 4) :
    ∃ elements, checkedVector length (BitVec.ofNat 64 step) extension first = some elements ∧
      elements = (vectorOperands length step extension first.slots).map Operands.indices ∧
      elements.length = length ∧
      (∀ number (within : number < elements.length), first.Reaches extension (number * step) elements[number]) ∧
      (2 ∣ step → ∀ element ∈ elements, first.SameParity element) ∧
      (length * step ≤ 8 → (elements.map (·.fd)).Nodup) := by
  have found : checkedVector length (BitVec.ofNat 64 step) extension first.slots.indices = _ :=
    checkedVector_eq small extension first.slots
  rw [Indices.indices_slots named] at found
  have reached (number : Nat) : first.Reaches extension (number * step)
      (first.slots.element step extension number).indices := by
    have round := first.slots.reaches_element step number extension
    rwa [Indices.indices_slots named] at round
  refine ⟨_, found, rfl, ?_, ?_, ?_, ?_⟩
  · rw [vectorOperands_eq]
    simp
  · intro number within
    simp only [vectorOperands_eq, List.getElem_map, List.getElem_range]
    exact reached number
  · intro even element member
    simp only [vectorOperands_eq, List.map_map, List.mem_map, Function.comp_apply] at member
    obtain ⟨number, -, rfl⟩ := member
    exact (reached number).sameParity (Nat.dvd_mul_left_of_dvd even number)
  · intro fits
    have apart := (nodup_destinations first.slots extension some_step fits).map Slot.index_injective
    rwa [List.map_map] at apart ⊢

/-- Doubles from the last of a bank on, each with an operand of its own bank and one that all share. -/
theorem checkedVector_goes_round_doubles :
    checkedVector 4 2 false { fd := 14, fn := 22, fm := 2 } = some
        [{ fd := 14, fn := 22, fm := 2 }, { fd := 8, fn := 16, fm := 2 }, { fd := 10, fn := 18, fm := 2 },
          { fd := 12, fn := 20, fm := 2 }] ∧
      ∃ elements, checkedVector 4 2 false { fd := 14, fn := 22, fm := 2 } = some elements ∧
        elements = (vectorOperands 4 2 false { fd := 14, fn := 22, fm := 2 }).map Operands.indices ∧
        elements.length = 4 ∧
        (∀ number (within : number < elements.length),
          Indices.Reaches { fd := 14, fn := 22, fm := 2 } false (number * 2) elements[number]) ∧
        (2 ∣ 2 → ∀ element ∈ elements, Indices.SameParity { fd := 14, fn := 22, fm := 2 } element) ∧
        (4 * 2 ≤ 8 → (elements.map (·.fd)).Nodup) :=
  ⟨rfl, checkedVector_goes_round ⟨by decide, by decide, by decide⟩ (by decide) (by decide)⟩

end Arm32.Vfp
