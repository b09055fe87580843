import Arm32.Disassembly.Basic
import Arm32.Proofs.Disassembly.RegisterLists

/-! What is printed of an instruction, and the notes that go with it, never hold a line feed, so an instruction takes one
line of a listing. -/

namespace Arm32

/-- No line ends within the text. -/
def Unbroken (text : String) : Prop := '\n' ∉ text.toList

instance (text : String) : Decidable (Unbroken text) := inferInstanceAs (Decidable (_ ∉ _))

variable {first second separator : String} {texts : List String}

/-- A literal is read by its characters. -/
theorem unbroken_ofList {chars : List Char} (plain : '\n' ∉ chars) : Unbroken (String.ofList chars) := by
  rwa [Unbroken, String.toList_ofList]

@[simp]
theorem unbroken_append : Unbroken (first ++ second) ↔ Unbroken first ∧ Unbroken second := by
  rw [Unbroken, String.toList_append, List.mem_append, not_or]
  rfl

theorem unbroken_intercalate (apart : Unbroken separator) (each : ∀ text ∈ texts, Unbroken text) :
    Unbroken (separator.intercalate texts) := by
  induction texts with
  | nil => simp [Unbroken]
  | cons text rest ih =>
      obtain ⟨here, others⟩ := List.forall_mem_cons.mp each
      cases rest with
      | nil => simpa using here
      | cons next rest =>
          rw [String.intercalate_cons_cons, unbroken_append, unbroken_append]
          exact ⟨⟨here, apart⟩, ih others⟩

/-! ### What mnemonics and operands are written with -/

@[simp]
theorem lineFeed_not_mem_toDigits (value : Nat) : '\n' ∉ Nat.toDigits 10 value :=
  Numeral.not_mem_toDigits (by decide) value

@[simp]
theorem Reg.unbroken_name (reg : Reg) : Unbroken reg.name := by simp [Unbroken, name]

@[simp]
theorem ImmediateStyle.unbroken_write (style : ImmediateStyle) (value : Word) : Unbroken (style.write value) := by
  rw [Unbroken, toList_write, List.mem_cons, not_or]
  refine ⟨by decide, fun member => ?_⟩
  rcases mem_digits member with sign | mark | ⟨radix, digit⟩
  · exact absurd sign (by decide)
  · exact absurd mark (by decide)
  · cases radix <;> exact absurd digit (by decide)

@[simp]
theorem Vfp.Precision.unbroken_register (precision : Precision) (slot : Nat) : Unbroken (precision.register slot) :=
  Precision.not_mem_register (by decide) (by cases precision <;> decide) slot

@[simp]
theorem Vfp.Precision.unbroken_suffix (precision : Precision) : Unbroken precision.suffix := by
  cases precision <;> decide

@[simp]
theorem Condition.unbroken_suffix (condition : Condition) : Unbroken condition.suffix := by
  cases condition <;> decide

@[simp]
theorem unbroken_flagSuffix (setFlags : Bool) : Unbroken (flagSuffix setFlags) := by cases setFlags <;> decide

@[simp]
theorem Transfer.unbroken_mnemonic (transfer : Transfer) : Unbroken transfer.mnemonic := by cases transfer <;> decide

@[simp]
theorem Quantity.unbroken_suffix (quantity : Quantity) : Unbroken quantity.suffix := by cases quantity <;> decide

@[simp]
theorem ShiftKind.unbroken_mnemonic (kind : ShiftKind) : Unbroken kind.mnemonic := by cases kind <;> decide

@[simp]
theorem Direction.unbroken_sign (direction : Direction) : Unbroken direction.sign := by cases direction <;> decide

@[simp]
theorem unbroken_writeBack (writeBack : Bool) : Unbroken (if writeBack then "!" else "") := by
  cases writeBack <;> decide

variable {style : ImmediateStyle} {condition : Condition}

@[simp]
theorem ShiftedRegister.unbroken_render (operand : ShiftedRegister) : Unbroken (operand.render style) := by
  unfold render
  cases operand.amount with
  | register rs reserved => simp +decide
  | immediate places =>
      dsimp only
      split
      · cases operand.kind <;> simp +decide
      · simp +decide

@[simp]
theorem Operand2.unbroken_render (operand : Operand2) : Unbroken (operand.render style) := by
  cases operand <;> simp [render]

@[simp]
theorem Addressing.unbroken_renderImmediate (mode : Addressing) (rn : Reg) (offset : Word) :
    Unbroken (mode.renderImmediate style rn offset) := by
  unfold renderImmediate
  cases mode.indexing <;> dsimp only <;> split <;> simp +decide

@[simp]
theorem Addressing.unbroken_renderRegister (mode : Addressing) (rn : Reg) {offset : String}
    (unbroken : Unbroken offset) : Unbroken (mode.renderRegister rn offset) := by
  unfold renderRegister
  cases mode.indexing <;> simp +decide [unbroken]

/-! ### Instructions -/

namespace Layout

/-- The parts of a layout hold no line feed. -/
def Unbroken : Layout → Prop
  | columns mnemonic operands => Arm32.Unbroken mnemonic ∧ Arm32.Unbroken operands
  | plain text => Arm32.Unbroken text

theorem Unbroken.text {layout : Layout} (unbroken : layout.Unbroken) : Arm32.Unbroken layout.text := by
  cases layout with
  | columns mnemonic operands =>
      have padding (count : Nat) : Arm32.Unbroken (String.ofList (List.replicate count ' ')) := by
        simp [Arm32.Unbroken]
      simpa [Layout.text, padded, padding] using show Arm32.Unbroken mnemonic ∧ Arm32.Unbroken operands from unbroken
  | plain text => exact unbroken

end Layout

theorem DataProcessing.unbroken_render (fields : DataProcessing) : (fields.render style condition).Unbroken := by
  have named : Unbroken fields.op.mnemonic := by cases fields.op <;> decide
  unfold render
  split
  · simp +decide [Layout.Unbroken, named]
  · split <;> simp +decide [Layout.Unbroken, named]

theorem PsrOp.unbroken_render (op : PsrOp) : (op.render style condition).Unbroken := by
  cases op with
  | writeFlags operand => cases operand <;> simp +decide [render, Layout.Unbroken]
  | _ => simp +decide [render, Layout.Unbroken]

theorem Multiply.unbroken_render (fields : Multiply) : (fields.render condition).Unbroken := by
  unfold render
  cases fields.op <;> simp +decide [Layout.Unbroken]

theorem MultiplyLong.unbroken_render (fields : MultiplyLong) : (fields.render condition).Unbroken := by
  have named : Unbroken fields.op.mnemonic := by cases fields.op <;> decide
  simp +decide [render, Layout.Unbroken, named]

theorem Swap.unbroken_render (fields : Swap) : (fields.render condition).Unbroken := by
  simp +decide [render, Layout.Unbroken]

theorem SingleTransfer.unbroken_render (fields : SingleTransfer) : (fields.render style condition).Unbroken := by
  have ended : Unbroken (writeBackSuffix fields.mode) := by
    unfold writeBackSuffix
    split <;> decide
  unfold render
  cases fields.offset <;> simp +decide [Layout.Unbroken, ended]

theorem HalfwordTransfer.unbroken_render (fields : HalfwordTransfer) : (fields.render style condition).Unbroken := by
  have ended : Unbroken fields.kind.suffix := by cases fields.kind <;> decide
  unfold render
  cases fields.offset <;> simp +decide [Layout.Unbroken, ended]

theorem BlockTransfer.unbroken_render (fields : BlockTransfer) : (fields.render condition).Unbroken := by
  have named : Unbroken fields.transfer.blockMnemonic := by cases fields.transfer <;> decide
  have ended : Unbroken (modeSuffix fields.mode) := by
    unfold modeSuffix
    cases fields.mode.direction <;> cases fields.mode.indexing <;> decide
  have listed : Unbroken (", ".intercalate (fields.registers.map Reg.name)) :=
    unbroken_intercalate (by decide) (by simp)
  simp +decide [render, Layout.Unbroken, named, ended, listed]

namespace Vfp

theorem unbroken_undefinedText : Unbroken undefinedText := by decide

theorem DataProcessing.unbroken_renderScalar (fields : DataProcessing) (op : ScalarOp) :
    (fields.renderScalar op condition).Unbroken := by
  cases op with
  | fcvt =>
      simp only [renderScalar]
      cases fields.precision <;> simp +decide [Layout.Unbroken]
  | _ => simp +decide [renderScalar, Layout.Unbroken]

theorem DataProcessing.unbroken_render (fields : DataProcessing) : (fields.render condition).Unbroken := by
  unfold render
  split
  case h_1 | h_2 => exact unbroken_undefinedText
  case h_3 op _ => exact fields.unbroken_renderScalar op
  case h_4 op _ =>
    have named : Unbroken op.mnemonic := by cases op <;> decide
    simp +decide [Layout.Unbroken, named]
  case h_5 op _ =>
    have named : Unbroken op.mnemonic := by cases op <;> decide
    simp +decide [Layout.Unbroken, named]

namespace LoadStore

variable {fields : LoadStore}

theorem unbroken_mnemonic (fields : LoadStore) : Unbroken fields.mnemonic := by
  unfold mnemonic
  cases fields.transfer <;> decide

theorem unbroken_renderList (fields : LoadStore) : Unbroken fields.renderList := by
  unfold renderList
  split <;> simp +decide

theorem unbroken_renderOffset (direction : Direction) : (fields.renderOffset direction style condition).Unbroken := by
  have offset : Unbroken (if fields.printed direction = 0 then "" else ", " ++ style.write (fields.printed direction)) := by
    split <;> simp +decide
  exact ⟨by simp [unbroken_mnemonic], by simpa +decide using offset⟩

theorem unbroken_renderMultiple {suffix : String} (ended : Unbroken suffix) (writeBack : Bool) :
    (fields.renderMultiple suffix writeBack condition).Unbroken := by
  simp +decide [renderMultiple, Layout.Unbroken, unbroken_mnemonic, unbroken_renderList, ended]

theorem unbroken_render (fields : LoadStore) : (fields.render style condition).Unbroken := by
  unfold render
  cases fields.mode with
  | positiveOffset | negativeOffset => exact unbroken_renderOffset _
  | unindexed | increment | decrement => exact unbroken_renderMultiple (by decide) _
  | undefined bits => exact unbroken_undefinedText

end LoadStore

theorem SystemRegister.unbroken_mnemonic (system : SystemRegister) : Unbroken system.mnemonic := by
  cases system with
  | unknown index => simp +decide [Unbroken, mnemonic]
  | _ => decide

theorem RegisterTransfer.unbroken_render (fields : RegisterTransfer) : (fields.render condition).Unbroken := by
  unfold render
  split
  · simp +decide [Layout.Unbroken]
  · cases fields.op with
    | undefined opcode => exact unbroken_undefinedText
    | _ => simp +decide [Layout.Unbroken, TransferOp.mnemonic, SystemRegister.unbroken_mnemonic]

end Vfp

theorem Instruction.unbroken_render (instruction : Instruction) : (instruction.render style condition).Unbroken := by
  cases instruction with
  | dataProcessing fields => exact fields.unbroken_render
  | psrTransfer saved op => exact op.unbroken_render
  | multiply fields => exact fields.unbroken_render
  | multiplyLong fields => exact fields.unbroken_render
  | countLeadingZeros rd rm => simp +decide [render, Layout.Unbroken]
  | swap fields => exact fields.unbroken_render
  | halfwordTransfer fields => exact fields.unbroken_render
  | singleTransfer fields => exact fields.unbroken_render
  | blockTransfer fields => exact fields.unbroken_render
  | branch link offset => cases link <;> simp +decide [render, Layout.Unbroken]
  | undefined | coprocessor => simp +decide [render, Layout.Unbroken]
  | vfp instruction =>
      cases instruction with
      | dataProcessing fields => exact fields.unbroken_render
      | loadStore fields => exact fields.unbroken_render
      | registerTransfer fields => exact fields.unbroken_render

theorem Note.unbroken_line (notes : List Note) : Unbroken (Note.line notes) := by
  have each (note : Note) : Unbroken note.text := by
    rw [text, unbroken_append]
    exact ⟨by cases note.severity <;> decide, by cases note <;> exact unbroken_ofList (by decide)⟩
  exact unbroken_intercalate (by decide) (by simp [each])

namespace Disassembly

@[simp]
theorem unbroken_text (settings : ListingSettings) (word : Word) : Unbroken (disassemble settings word).text :=
  (Instruction.unbroken_render _).text

@[simp]
theorem unbroken_noteLine (disassembly : Disassembly) : Unbroken disassembly.noteLine := Note.unbroken_line _

end Disassembly

end Arm32
