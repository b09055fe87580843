import Mathlib.Data.List.TakeWhile
import Arm32.Proofs.Encoding.VfpNotes
import Arm32.Proofs.Text.Reading
import Arm32.Proofs.Transfer.Slots

/-! The list of floating-point registers that is printed between braces, read back, against the slots that are moved. -/

namespace Arm32

namespace Vfp

/-- Registers of one precision, from the first to the last. -/
structure RegisterList where
  precision : Precision
  first : Nat
  last : Nat
  deriving DecidableEq, Repr

namespace RegisterList

def precision? : Char → Option Precision
  | 's' => some .single
  | 'd' => some .double
  | _ => none

/-- The letter of a precision, and the number of one of its registers. -/
def readRegister? : List Char → Option (Precision × Nat)
  | letter :: digit :: digits => do
    let precision ← precision? letter
    let number ← (Numeral.extend .decimal (32 / precision.words) 0 (digit :: digits)).toOption
    return (precision, number)
  | _ => none

/-- One register, or the first and the last with a hyphen between them. -/
def readRegisters? (text : List Char) : Option RegisterList := do
  let (precision, first) ← readRegister? (text.takeWhile (· != '-'))
  match text.dropWhile (· != '-') with
  | [] => return { precision, first, last := first }
  | _ :: rest =>
    let (other, last) ← readRegister? rest
    if other = precision then return { precision, first, last } else none

/-- What stands between the braces of an instruction. -/
def read? (text : String) : Option RegisterList :=
  readRegisters? (((text.toList.dropWhile (· != '{')).drop 1).takeWhile (· != '}'))

/-- A single register covers the slot of its number, a double the two slots of which its number is the half. -/
def Covers (list : RegisterList) (slot : Slot) : Prop :=
  list.first ≤ slot.toNat / list.precision.words ∧ slot.toNat / list.precision.words ≤ list.last

instance (list : RegisterList) (slot : Slot) : Decidable (list.Covers slot) := inferInstanceAs (Decidable (_ ∧ _))

end RegisterList

namespace Precision

variable {precision : Precision} {slot : Nat} {mark : Char}

def letter : Precision → Char
  | single => 's'
  | double => 'd'

theorem words_eq (precision : Precision) : precision.words = 1 ∨ precision.words = 2 := by
  cases precision with
  | single => exact .inl rfl
  | double => exact .inr rfl

theorem toList_register (precision : Precision) (slot : Nat) :
    (precision.register slot).toList = precision.letter :: Nat.toDigits 10 (slot / precision.words) := by
  cases precision <;> simp [register, letter, words, toString]

theorem not_mem_register (other : Numeral.Radix.decimal.digit? mark = none) (apart : mark ≠ precision.letter)
    (slot : Nat) : mark ∉ (precision.register slot).toList := by
  rw [toList_register, List.mem_cons, not_or]
  exact ⟨apart, Numeral.not_mem_toDigits other _⟩

theorem readRegister?_register (bound : slot / precision.words < 32 / precision.words) :
    RegisterList.readRegister? (precision.register slot).toList = some (precision, slot / precision.words) := by
  have known : RegisterList.precision? precision.letter = some precision := by cases precision <;> rfl
  have digits : Numeral.extend .decimal (32 / precision.words) 0 (Nat.toDigits 10 (slot / precision.words)) =
      .ok (slot / precision.words) := Numeral.extend_toDigits bound
  rw [toList_register]
  cases written : Nat.toDigits 10 (slot / precision.words) with
  | nil => exact absurd written Nat.toDigits_ne_nil
  | cons digit rest =>
      rw [written] at digits
      simp [RegisterList.readRegister?, known, digits, Except.toOption]

end Precision

namespace LoadStore

variable {fields : LoadStore} {condition : Condition} {slot : Slot}

/-- The whole registers of a list. -/
def listed (fields : LoadStore) : RegisterList :=
  let first := fields.firstSlot / fields.precision.words
  { precision := fields.precision, first, last := first + (fields.registerCount - 1) }

theorem firstSlot_mod (fields : LoadStore) : fields.firstSlot % fields.precision.words = 0 := by
  have even (slot : Slot) : slot.lowHalf.toNat % 2 = 0 := by decide +revert
  cases precision : fields.precision with
  | single => exact Nat.mod_one _
  | double =>
      simp only [firstSlot, precision, Slot.aligned]
      exact even fields.fd

theorem number_lt (fits : fields.firstSlot + fields.offset.toNat ≤ 32) {index : Nat}
    (below : index < fields.registerCount) :
    (fields.firstSlot + index * fields.precision.words) / fields.precision.words < 32 / fields.precision.words := by
  rw [registerCount] at below
  rcases fields.precision.words_eq with words | words <;> rw [words] at below ⊢ <;> omega

theorem readRegisters?_renderList (someRegister : fields.registerCount ≠ 0)
    (fits : fields.firstSlot + fields.offset.toNat ≤ 32) :
    RegisterList.readRegisters? fields.renderList.toList = some fields.listed := by
  have hyphen (slot : Nat) : '-' ∉ (fields.precision.register slot).toList :=
    Precision.not_mem_register (by decide) (by cases fields.precision <;> decide) slot
  have first : RegisterList.readRegister? (fields.precision.register fields.firstSlot).toList =
      some (fields.precision, fields.firstSlot / fields.precision.words) := by
    have below := number_lt fits (Nat.pos_of_ne_zero someRegister)
    rw [Nat.zero_mul, Nat.add_zero] at below
    exact Precision.readRegister?_register below
  unfold renderList RegisterList.readRegisters?
  split
  case h_1 none => exact absurd none someRegister
  case h_2 single =>
      have plain := bne_of_not_mem (hyphen fields.firstSlot)
      rw [List.takeWhile_eq_self_iff.mpr plain, List.dropWhile_eq_nil_iff.mpr plain, first]
      simp [listed, single]
  case h_3 many =>
      let last := fields.firstSlot + (fields.registerCount - 1) * fields.precision.words
      have written : (fields.precision.register fields.firstSlot ++ "-" ++ fields.precision.register last).toList =
          (fields.precision.register fields.firstSlot).toList ++ '-' :: (fields.precision.register last).toList := by
        simp
      have below : fields.registerCount - 1 < fields.registerCount := by omega
      have lastRead : RegisterList.readRegister? (fields.precision.register last).toList =
          some (fields.precision, last / fields.precision.words) :=
        Precision.readRegister?_register (number_lt fits below)
      have number : last / fields.precision.words =
          fields.firstSlot / fields.precision.words + (fields.registerCount - 1) := by
        rcases fields.precision.words_eq with words | words <;> simp only [last, words] <;> omega
      rw [written, takeWhile_append_mark (hyphen _), dropWhile_append_mark (hyphen _), first]
      simp [listed, lastRead, number]

/-- The listed registers cover the slots of a list but for the last, where its words make no whole registers. -/
theorem spans_iff (someRegister : fields.registerCount ≠ 0) :
    fields.Spans slot ↔
      fields.listed.Covers slot ∨ fields.offset.toNat % fields.precision.words ≠ 0 ∧
        slot.toNat + 1 = fields.firstSlot + fields.offset.toNat := by
  have aligned := fields.firstSlot_mod
  rw [registerCount] at someRegister
  simp only [Spans, RegisterList.Covers, listed, registerCount]
  rcases fields.precision.words_eq with words | words <;> rw [words] at aligned someRegister ⊢ <;> omega

theorem close_not_mem_renderList : '}' ∉ fields.renderList.toList := by
  have register (slot : Nat) : '}' ∉ (fields.precision.register slot).toList :=
    Precision.not_mem_register (by decide) (by cases fields.precision <;> decide) slot
  unfold renderList
  split <;> simp [register]

theorem exists_text_renderMultiple (fields : LoadStore) {suffix : String} (plain : '{' ∉ suffix.toList)
    (writeBack : Bool) (condition : Condition) :
    ∃ front, '{' ∉ front ∧ (fields.renderMultiple suffix writeBack condition).text.toList =
      front ++ '{' :: (fields.renderList.toList ++ ['}']) := by
  -- No name in front of the list has a brace in it, so the first one opens the list.
  let mnemonic := fields.mnemonic ++ "m" ++ suffix ++ fields.precision.suffix ++ condition.suffix
  refine ⟨(Layout.padded mnemonic).toList ++ fields.rn.name.toList ++ (if writeBack then ['!'] else []) ++ [',', ' '],
    ?_, ?_⟩
  · have transfer : '{' ∉ fields.mnemonic.toList := by
      unfold LoadStore.mnemonic
      cases fields.transfer <;> decide
    have precision : '{' ∉ fields.precision.suffix.toList := by cases fields.precision <;> decide
    have condition : '{' ∉ condition.suffix.toList := by cases condition <;> decide
    have name : '{' ∉ fields.rn.name.toList := by
      have digits : '{' ∉ Nat.toDigits 10 fields.rn.toNat := Numeral.not_mem_toDigits (by decide) _
      simp [Reg.name, digits]
    cases writeBack <;> simp [mnemonic, Layout.padded, transfer, plain, precision, condition, name]
  · cases writeBack <;> simp [renderMultiple, Layout.text, mnemonic]

theorem read?_renderMultiple {suffix : String} {writeBack : Bool} (plain : '{' ∉ suffix.toList)
    (someRegister : fields.registerCount ≠ 0) (fits : fields.firstSlot + fields.offset.toNat ≤ 32) :
    RegisterList.read? (fields.renderMultiple suffix writeBack condition).text = some fields.listed := by
  obtain ⟨front, plain, written⟩ := fields.exists_text_renderMultiple plain writeBack condition
  rw [RegisterList.read?, written, dropWhile_append_mark plain, List.drop_one, List.tail_cons,
    takeWhile_append_mark close_not_mem_renderList]
  exact readRegisters?_renderList someRegister fits

theorem exists_renderMultiple (multiple : fields.mode.isMultiple = true) :
    ∃ suffix writeBack, '{' ∉ suffix.toList ∧
      (∀ style condition, fields.render style condition = fields.renderMultiple suffix writeBack condition) ∧
      ∀ condition, fields.notes condition = fields.multipleNotes writeBack condition := by
  unfold render notes
  cases mode : fields.mode with
  | unindexed => exact ⟨"ia", false, by decide, fun _ _ => rfl, fun _ => rfl⟩
  | increment => exact ⟨"ia", true, by decide, fun _ _ => rfl, fun _ => rfl⟩
  | decrement => exact ⟨"db", true, by decide, fun _ _ => rfl, fun _ => rfl⟩
  | positiveOffset | negativeOffset | undefined mode => simp [mode, AddressMode.isMultiple] at multiple

theorem registerCount_of_quiet {writeBack : Bool} (quiet : fields.multipleNotes writeBack condition = []) :
    fields.registerCount ≠ 0 := by
  simp only [multipleNotes, List.append_eq_nil_iff, Note.when_eq_nil] at quiet
  exact beq_eq_false_iff_ne.mp quiet.2

end LoadStore

end Vfp

namespace Machine

open Vfp (Slot RegisterList)

variable {machine : Machine} {word : Word} {fields : Vfp.LoadStore} {done : Machine × Flow}

/-- An instruction moves the slots of the list in its text. A list of doubles that is an odd number of words long leaves
one more slot out of its text, the last. -/
theorem moves_iff_listed (settings : ListingSettings) (decoded : Instruction.decode word = .vfp (.loadStore fields))
    (multiple : fields.mode.isMultiple = true) (quiet : (disassemble settings word).noteLine = "")
    (performed : machine.execute word = .ok done) :
    ∃ list, RegisterList.read? (disassemble settings word).text = some list ∧ ∀ slot,
      machine.Moves word fields.transfer slot ↔ machine.status.holds (Condition.ofWord word) = true ∧
        (list.Covers slot ∨ fields.offset.toNat % fields.precision.words ≠ 0 ∧
          slot.toNat + 1 = fields.firstSlot + fields.offset.toNat) := by
  obtain ⟨suffix, writeBack, plain, written, notes⟩ := Vfp.LoadStore.exists_renderMultiple multiple
  have silent : fields.multipleNotes writeBack (Condition.ofWord word) = [] := by
    have silent : (Instruction.decode word).notes (Condition.ofWord word) = [] := Note.line_eq_empty_iff.mp quiet
    rw [decoded] at silent
    rw [← notes]
    exact silent
  have someRegister := Vfp.LoadStore.registerCount_of_quiet silent
  have fits := (Vfp.LoadStore.multiple_of_quiet silent).1
  refine ⟨fields.listed, ?_, fun slot => ?_⟩
  · have text : (disassemble settings word).text =
        (fields.renderMultiple suffix writeBack (Condition.ofWord word)).text := by
      rw [← written settings.style]
      show ((Instruction.decode word).render settings.style (Condition.ofWord word)).text = _
      rw [decoded]
      rfl
    rw [text]
    exact Vfp.LoadStore.read?_renderMultiple plain someRegister fits
  · rw [moves_iff decoded multiple fits performed, Vfp.LoadStore.spans_iff someRegister]

/-- Two words make one double. -/
theorem moves_iff_listed_double :
    ∃ list, RegisterList.read? (disassemble ⟨.arm7, .little, false⟩ 0xECB00B02).text = some list ∧
      ∀ slot, aboveWords.Moves 0xECB00B02 .load slot ↔ list.Covers slot := by
  have decoded : Instruction.decode 0xECB00B02 = .vfp (.loadStore
      { precision := .double, mode := .increment, transfer := .load, rn := 0, fd := 0, offset := 2 }) := rfl
  have executed : aboveWords.execute 0xECB00B02 = .ok (_, .next) := rfl
  obtain ⟨list, read, moved⟩ := moves_iff_listed ⟨.arm7, .little, false⟩ decoded rfl (by decide) executed
  refine ⟨list, read, fun slot => (moved slot).trans ?_⟩
  have even : ¬ ((2 : BitVec 8).toNat % Vfp.Precision.double.words ≠ 0) := by decide
  have holds : aboveWords.status.holds (Condition.ofWord 0xECB00B02) = true := rfl
  simp only [holds, even, true_and, false_and, or_false]

/-- Three words are printed as the same double, and the third goes to a slot that is not in the text. -/
theorem moves_unlisted :
    (disassemble ⟨.arm7, .little, false⟩ 0xECB00B03).noteLine = "" ∧
      RegisterList.read? (disassemble ⟨.arm7, .little, false⟩ 0xECB00B03).text =
        some { precision := .double, first := 0, last := 0 } ∧
      (∃ done, aboveWords.execute 0xECB00B03 = .ok done) ∧ aboveWords.Moves 0xECB00B03 .load 2 ∧
      ¬ RegisterList.Covers { precision := .double, first := 0, last := 0 } 2 := by
  have decoded : Instruction.decode 0xECB00B03 = .vfp (.loadStore
      { precision := .double, mode := .increment, transfer := .load, rn := 0, fd := 0, offset := 3 }) := rfl
  have executed : aboveWords.execute 0xECB00B03 = .ok (_, .next) := rfl
  exact ⟨by decide, by decide, ⟨_, executed⟩, (moves_iff decoded rfl (by decide) executed).mpr ⟨rfl, by decide, by decide⟩, by decide⟩

end Machine
end Arm32
