import Arm32.Disassembly.Basic
import Arm32.Proofs.Disassembly.RegisterLists

/-! Where the operands stand. A mnemonic is padded to the column of the operands, and one that is as long as that runs
into them. The long forms are those that leave no room for a condition. -/

namespace Arm32

/-- There is no blank in the text. -/
def Unspaced (text : String) : Prop := ' ' ∉ text.toList

/-- There is a text, and it does not start with a blank. -/
def StartsPlain (text : String) : Prop := ∃ char ∈ text.toList.head?, char ≠ ' '

instance (text : String) : Decidable (Unspaced text) := inferInstanceAs (Decidable (_ ∉ _))

variable {first second name suffixes operands : String}

theorem Unspaced.append (plain : Unspaced first) (plainAfter : Unspaced second) : Unspaced (first ++ second) := by
  rw [Unspaced, String.toList_append, List.mem_append, not_or]
  exact ⟨plain, plainAfter⟩

theorem StartsPlain.append (starts : StartsPlain first) (rest : String) : StartsPlain (first ++ rest) := by
  obtain ⟨char, head, plain⟩ := starts
  refine ⟨char, ?_, plain⟩
  rw [String.toList_append, List.head?_append, Option.mem_def.mp head]
  rfl

theorem Reg.startsPlain_name (reg : Reg) : StartsPlain reg.name :=
  StartsPlain.append ⟨'r', rfl, by decide⟩ _

theorem Vfp.Precision.startsPlain_register (precision : Precision) (slot : Nat) :
    StartsPlain (precision.register slot) := by
  refine ⟨precision.letter, ?_, ?_⟩
  · rw [precision.toList_register]
    rfl
  · cases precision <;> decide

theorem Vfp.SystemRegister.startsPlain_mnemonic (system : SystemRegister) : StartsPlain system.mnemonic := by
  cases system with
  | fpsid | fpscr | fpexc => exact ⟨'f', rfl, by decide⟩
  | unknown index => exact StartsPlain.append ⟨'f', rfl, by decide⟩ _

namespace Condition

theorem unspaced_suffix (condition : Condition) : Unspaced condition.suffix := by
  cases condition <;> simp [Unspaced, suffix]

theorem length_suffix (condition : Condition) : condition.suffix.length = if condition = al then 0 else 2 := by
  cases condition <;> rfl

end Condition

/-- A mnemonic of a name, a condition and suffixes, and operands. The mnemonic reaches the column of the operands or
not. -/
def Layout.Spelled (layout : Layout) (condition : Condition) (reaches : Bool) : Prop :=
  ∃ name suffixes operands : String, layout = .columns (name ++ condition.suffix ++ suffixes) operands ∧
    Unspaced (name ++ condition.suffix ++ suffixes) ∧ StartsPlain operands ∧
    (8 ≤ (name ++ condition.suffix ++ suffixes).length ↔ reaches = true)

namespace Layout

variable {condition : Condition} {crowded : Bool}

/-- Six letters besides the condition leave no room for it. -/
theorem spelled_columns (named : Unspaced name) (ended : Unspaced suffixes) (starts : StartsPlain operands)
    (bounded : name.length + suffixes.length ≤ 7) (long : crowded = decide (6 ≤ name.length + suffixes.length)) :
    (columns (name ++ condition.suffix ++ suffixes) operands).Spelled condition (crowded && condition != .al) := by
  refine ⟨name, suffixes, operands, rfl, (named.append condition.unspaced_suffix).append ended, starts, ?_⟩
  rw [String.length_append, String.length_append, condition.length_suffix, long, Bool.and_eq_true, bne_iff_ne,
    decide_eq_true_eq]
  split <;> simp_all <;> omega

theorem spelled_short (named : Unspaced name) (ended : Unspaced suffixes) (starts : StartsPlain operands)
    (short : name.length + suffixes.length ≤ 5) :
    (columns (name ++ condition.suffix ++ suffixes) operands).Spelled condition false :=
  spelled_columns named ended starts (by omega) (decide_eq_false (by omega)).symm

theorem spelled_of_name (named : Unspaced name) (starts : StartsPlain operands) (bounded : name.length ≤ 7)
    (long : crowded = decide (6 ≤ name.length)) :
    (columns (name ++ condition.suffix) operands).Spelled condition (crowded && condition != .al) := by
  have spelled := @spelled_columns name "" operands condition crowded named (by decide) starts bounded long
  rwa [String.append_empty] at spelled

theorem spelled_short_name (named : Unspaced name) (starts : StartsPlain operands) (short : name.length ≤ 5) :
    (columns (name ++ condition.suffix) operands).Spelled condition false :=
  spelled_of_name named starts (by omega) (decide_eq_false (by omega)).symm

end Layout

variable {style : ImmediateStyle} {condition : Condition}

theorem unspaced_flagSuffix (setFlags : Bool) : Unspaced (flagSuffix setFlags) := by cases setFlags <;> decide

theorem length_flagSuffix (setFlags : Bool) : (flagSuffix setFlags).length = setFlags.toNat := by cases setFlags <;> rfl

theorem DataProcessing.spelled_render (fields : DataProcessing) :
    (fields.render style condition).Spelled condition false := by
  have named : Unspaced fields.op.mnemonic := by cases fields.op <;> decide
  have length : fields.op.mnemonic.length = 3 := by cases fields.op <;> rfl
  have flag := length_flagSuffix fields.setFlags
  have one := fields.setFlags.toNat_le
  unfold render
  split
  · refine Layout.spelled_short_name named ?_ (by omega)
    exact (fields.rn.startsPlain_name.append _).append _
  · split
    · refine Layout.spelled_short named (unspaced_flagSuffix _) ?_ (by omega)
      exact (fields.rd.startsPlain_name.append _).append _
    · refine Layout.spelled_short named (unspaced_flagSuffix _) ?_ (by omega)
      exact (((fields.rd.startsPlain_name.append _).append _).append _).append _

theorem PsrOp.spelled_render (op : PsrOp) (defined : op ≠ .undefined) :
    (op.render style condition).Spelled condition false := by
  have status (rest : String) : StartsPlain ("CPSR_flg, " ++ rest) := StartsPlain.append ⟨'C', rfl, by decide⟩ rest
  cases op with
  | read rd => exact Layout.spelled_short_name (by decide) (rd.startsPlain_name.append _) (by decide)
  | write rm => exact Layout.spelled_short_name (by decide) (status _) (by decide)
  | writeFlags operand => cases operand <;> exact Layout.spelled_short_name (by decide) (status _) (by decide)
  | undefined => exact absurd rfl defined

theorem Multiply.spelled_render (fields : Multiply) : (fields.render condition).Spelled condition false := by
  have named : Unspaced fields.op.mnemonic := by cases fields.op <;> decide
  have length : fields.op.mnemonic.length = 3 := by cases fields.op <;> rfl
  have flag := length_flagSuffix fields.setFlags
  have one := fields.setFlags.toNat_le
  refine Layout.spelled_short named (unspaced_flagSuffix _) ?_ (by omega)
  exact (((((fields.rd.startsPlain_name).append _).append _).append _).append _).append _

/-- The longest names of the core instructions leave room for a condition, or for the sign of the flags, but not for
both. -/
theorem MultiplyLong.spelled_render (fields : MultiplyLong) :
    (fields.render condition).Spelled condition (fields.setFlags && condition != .al) := by
  have named : Unspaced fields.op.mnemonic := by cases fields.op <;> decide
  have length : fields.op.mnemonic.length = 5 := by cases fields.op <;> rfl
  have flag := length_flagSuffix fields.setFlags
  have one := fields.setFlags.toNat_le
  refine Layout.spelled_columns named (unspaced_flagSuffix _) ?_ (by omega) ?_
  · exact ((((((fields.rdLow.startsPlain_name).append _).append _).append _).append _).append _).append _
  · rw [length, flag]
    cases fields.setFlags <;> rfl

theorem Swap.spelled_render (fields : Swap) : (fields.render condition).Spelled condition false := by
  have ended : Unspaced fields.quantity.suffix := by cases fields.quantity <;> decide
  have length : fields.quantity.suffix.length ≤ 1 := by cases fields.quantity <;> decide
  refine Layout.spelled_short (by decide) ended ?_ ?_
  · exact (((((fields.rd.startsPlain_name).append _).append _).append _).append _).append _
  · show 3 + _ ≤ 5
    omega

theorem SingleTransfer.spelled_render (fields : SingleTransfer) :
    (fields.render style condition).Spelled condition false := by
  have named : Unspaced fields.transfer.mnemonic := by cases fields.transfer <;> decide
  have length : fields.transfer.mnemonic.length = 3 := by cases fields.transfer <;> rfl
  have ended : Unspaced (fields.quantity.suffix ++ writeBackSuffix fields.mode) := by
    unfold writeBackSuffix
    cases fields.quantity <;> split <;> decide
  have rest : (fields.quantity.suffix ++ writeBackSuffix fields.mode).length ≤ 2 := by
    unfold writeBackSuffix
    cases fields.quantity <;> split <;> decide
  rw [render, @String.append_assoc (_ ++ condition.suffix)]
  exact Layout.spelled_short named ended ((fields.rd.startsPlain_name.append _).append _) (by omega)

theorem HalfwordTransfer.spelled_render (fields : HalfwordTransfer) :
    (fields.render style condition).Spelled condition false := by
  have named : Unspaced fields.transfer.mnemonic := by cases fields.transfer <;> decide
  have length : fields.transfer.mnemonic.length = 3 := by cases fields.transfer <;> rfl
  have ended : Unspaced fields.kind.suffix := by cases fields.kind <;> decide
  have rest : fields.kind.suffix.length ≤ 2 := by cases fields.kind <;> decide
  exact Layout.spelled_short named ended ((fields.rd.startsPlain_name.append _).append _) (by omega)

theorem BlockTransfer.spelled_render (fields : BlockTransfer) : (fields.render condition).Spelled condition false := by
  have named : Unspaced fields.transfer.blockMnemonic := by cases fields.transfer <;> decide
  have length : fields.transfer.blockMnemonic.length = 3 := by cases fields.transfer <;> rfl
  have ended : Unspaced (modeSuffix fields.mode) := by
    unfold modeSuffix
    cases fields.mode.direction <;> cases fields.mode.indexing <;> decide
  have rest : (modeSuffix fields.mode).length = 2 := by
    unfold modeSuffix
    cases fields.mode.direction <;> cases fields.mode.indexing <;> rfl
  refine Layout.spelled_short named ended ?_ (by omega)
  exact (((fields.rn.startsPlain_name.append _).append _).append _).append _

namespace Vfp

/-- Operations whose names have more than four letters, that of the precision apart. -/
def DataOp.isLong : DataOp → Bool
  | arithmetic .fnmac | arithmetic .fnmsc | arithmetic .fnmul => true
  | arithmetic _ => false
  | extension (.unary op) => op == .fsqrt
  | extension (.scalar op) => op != .fcmp
  | extension (.undefined _) | undefined _ => false

def DataOp.isDefined : DataOp → Bool
  | extension (.undefined _) | undefined _ => false
  | _ => true

def AddressMode.isDefined : AddressMode → Bool
  | undefined _ => false
  | _ => true

theorem Precision.unspaced_suffix (precision : Precision) : Unspaced precision.suffix := by cases precision <;> decide

theorem Precision.length_suffix (precision : Precision) : precision.suffix.length = 1 := by cases precision <;> rfl

theorem Precision.spelled_columns {precision : Precision} {crowded : Bool} (named : Unspaced name)
    (starts : StartsPlain operands) (bounded : name.length ≤ 6) (long : crowded = decide (5 ≤ name.length)) :
    (Layout.columns (name ++ precision.suffix ++ condition.suffix) operands).Spelled condition
      (crowded && condition != .al) := by
  have length : (name ++ precision.suffix).length = name.length + 1 := by
    rw [String.length_append, precision.length_suffix]
  refine Layout.spelled_of_name (named.append precision.unspaced_suffix) starts (by omega) ?_
  rw [long, length, decide_eq_decide]
  omega

namespace DataProcessing

variable {fields : DataProcessing}

theorem spelled_renderScalar (op : ScalarOp) :
    (fields.renderScalar op condition).Spelled condition (op != .fcmp && condition != .al) := by
  have named : Unspaced op.mnemonic := by cases op <;> decide
  have bounded : op.mnemonic.length ≤ 6 := by cases op <;> decide
  have registers (precision : Precision) (slot : Nat) (rest : String) :
      StartsPlain (precision.register slot ++ ", " ++ rest) :=
    ((precision.startsPlain_register slot).append _).append rest
  cases op with
  | fcmp | fcmpe => exact Precision.spelled_columns named (registers _ _ _) bounded rfl
  | fcmpz | fcmpez => exact Precision.spelled_columns named (fields.precision.startsPlain_register _) bounded rfl
  | fcvt =>
      simp only [renderScalar]
      cases fields.precision <;> exact Layout.spelled_of_name (by decide) (registers _ _ _) (by decide) rfl
  | fuito | fsito | ftoui | ftouiz | ftosi | ftosiz =>
      exact Precision.spelled_columns named (registers _ _ _) bounded rfl

theorem spelled_render (defined : fields.op.isDefined = true) :
    (fields.render condition).Spelled condition (fields.op.isLong && condition != .al) := by
  have registers (slot : Nat) (rest : String) : StartsPlain (fields.precision.register slot ++ ", " ++ rest) :=
    ((fields.precision.startsPlain_register slot).append _).append rest
  cases op : fields.op with
  | arithmetic arithmetic =>
      simp only [render, op, ← String.append_assoc]
      refine Precision.spelled_columns ?_ (((registers _ _).append _).append _) ?_ ?_ <;> cases arithmetic <;> decide
  | extension extension =>
      cases extension with
      | unary unary =>
          simp only [render, op, ← String.append_assoc]
          refine Precision.spelled_columns ?_ (registers _ _) ?_ ?_ <;> cases unary <;> decide
      | scalar scalar =>
          simp only [render, op]
          exact spelled_renderScalar scalar
      | undefined selector => simp [op, DataOp.isDefined] at defined
  | undefined opcode => simp [op, DataOp.isDefined] at defined

end DataProcessing

namespace LoadStore

variable {fields : LoadStore}

theorem unspaced_mnemonic (fields : LoadStore) : Unspaced fields.mnemonic := by
  unfold mnemonic
  cases fields.transfer <;> decide

theorem length_mnemonic (fields : LoadStore) : fields.mnemonic.length = 3 := by
  unfold mnemonic
  cases fields.transfer <;> rfl

theorem spelled_renderOffset (direction : Direction) :
    (fields.renderOffset direction style condition).Spelled condition false := by
  refine Layout.spelled_short_name (fields.unspaced_mnemonic.append fields.precision.unspaced_suffix) ?_ ?_
  · exact ((((fields.precision.startsPlain_register _).append _).append _).append _).append _
  · rw [String.length_append, fields.length_mnemonic, fields.precision.length_suffix]
    decide

theorem spelled_renderMultiple {suffix : String} (ended : Unspaced suffix) (two : suffix.length = 2)
    (writeBack : Bool) : (fields.renderMultiple suffix writeBack condition).Spelled condition (condition != .al) := by
  have length : (fields.mnemonic ++ "m" ++ suffix ++ fields.precision.suffix).length = 7 := by
    simp only [String.length_append, fields.length_mnemonic, two, fields.precision.length_suffix]
    rfl
  have named : Unspaced (fields.mnemonic ++ "m" ++ suffix ++ fields.precision.suffix) :=
    ((fields.unspaced_mnemonic.append (by decide)).append ended).append fields.precision.unspaced_suffix
  have starts : StartsPlain (fields.rn.name ++ (if writeBack then "!" else "") ++ ", \x7b" ++ fields.renderList ++ "\x7d") :=
    (((fields.rn.startsPlain_name.append _).append _).append _).append _
  have spelled := @Layout.spelled_of_name _ _ condition true named starts (by omega) (by rw [length]; rfl)
  rwa [Bool.true_and] at spelled

theorem spelled_render (fields : LoadStore) (defined : fields.mode.isDefined = true) :
    (fields.render style condition).Spelled condition (fields.mode.isMultiple && condition != .al) := by
  cases mode : fields.mode with
  | positiveOffset | negativeOffset =>
      simp only [render, mode]
      exact spelled_renderOffset _
  | unindexed | increment | decrement =>
      simp only [render, mode]
      exact spelled_renderMultiple (by decide) (by decide) _
  | undefined bits => simp [mode, AddressMode.isDefined] at defined

end LoadStore

def TransferOp.isDefined : TransferOp → Bool
  | undefined _ => false
  | _ => true

theorem RegisterTransfer.spelled_render (fields : RegisterTransfer) (defined : fields.op.isDefined = true)
    (apart : fields.isFlagMove = false) : (fields.render condition).Spelled condition false := by
  have fromSlot (precision : Precision) (rest : String) :
      StartsPlain (precision.register fields.fn.toNat ++ ", " ++ rest) :=
    ((precision.startsPlain_register _).append _).append rest
  have fromCore (rest : String) : StartsPlain (fields.rd.name ++ ", " ++ rest) :=
    (fields.rd.startsPlain_name.append _).append rest
  simp only [render, apart, Bool.false_eq_true, if_false]
  cases op : fields.op with
  | fmsr | fmdlr | fmdhr => exact Layout.spelled_short_name (by decide) (fromSlot _ _) (by decide)
  | fmrs | fmrx | fmrdl | fmrdh => exact Layout.spelled_short_name (by decide) (fromCore _) (by decide)
  | fmxr =>
      exact Layout.spelled_short_name (by decide) ((fields.system.startsPlain_mnemonic.append _).append _) (by decide)
  | undefined opcode => simp [op, TransferOp.isDefined] at defined

namespace Instruction

def hasOperands : Instruction → Bool
  | dataProcessing fields => fields.op.isDefined
  | loadStore fields => fields.mode.isDefined
  | registerTransfer fields => fields.op.isDefined && !fields.isFlagMove

/-- Instructions whose mnemonic has six letters or more besides the condition. -/
def isLong : Instruction → Bool
  | dataProcessing fields => fields.op.isLong
  | loadStore fields => fields.mode.isMultiple
  | registerTransfer _ => false

theorem spelled_render {instruction : Instruction} (operated : instruction.hasOperands = true) :
    (instruction.render style condition).Spelled condition (instruction.isLong && condition != .al) := by
  cases instruction with
  | dataProcessing fields => exact DataProcessing.spelled_render operated
  | loadStore fields => exact fields.spelled_render operated
  | registerTransfer fields =>
      obtain ⟨defined, apart⟩ := Bool.and_eq_true_iff.mp operated
      exact fields.spelled_render defined (by simpa using apart)

end Instruction

end Vfp

namespace Instruction

/-- Instructions that are printed with operands. The target of a branch is not among the text of the instruction. -/
def hasOperands : Instruction → Bool
  | branch _ _ | undefined | coprocessor => false
  | psrTransfer _ op => op != .undefined
  | vfp instruction => instruction.hasOperands
  | _ => true

/-- Instructions whose mnemonic has six letters or more besides the condition. -/
def isLong : Instruction → Bool
  | multiplyLong fields => fields.setFlags
  | vfp instruction => instruction.isLong
  | _ => false

theorem spelled_render {instruction : Instruction} (operated : instruction.hasOperands = true) :
    (instruction.render style condition).Spelled condition (instruction.isLong && condition != .al) := by
  cases instruction with
  | dataProcessing fields => exact fields.spelled_render
  | psrTransfer saved op => exact op.spelled_render (bne_iff_ne.mp operated)
  | multiply fields => exact fields.spelled_render
  | multiplyLong fields => exact fields.spelled_render
  | countLeadingZeros rd rm =>
      exact Layout.spelled_short_name (by decide) ((rd.startsPlain_name.append _).append _) (by decide)
  | swap fields => exact fields.spelled_render
  | halfwordTransfer fields => exact fields.spelled_render
  | singleTransfer fields => exact fields.spelled_render
  | blockTransfer fields => exact fields.spelled_render
  | branch | undefined | coprocessor => cases operated
  | vfp instruction => exact Vfp.Instruction.spelled_render operated

end Instruction

/-- The text is a mnemonic without blanks, then so many blanks, then the operands, in their column or behind it. -/
def Disassembly.Separates (disassembly : Disassembly) (condition : Condition) (blanks : Nat) : Prop :=
  ∃ name suffixes operands : String,
    disassembly.layout = .columns (name ++ condition.suffix ++ suffixes) operands ∧
    Unspaced (name ++ condition.suffix ++ suffixes) ∧ StartsPlain operands ∧
    disassembly.text =
      name ++ condition.suffix ++ suffixes ++ String.ofList (List.replicate blanks ' ') ++ operands ∧
    8 ≤ (name ++ condition.suffix ++ suffixes).length + blanks

/-- Operands are kept apart from the mnemonic, except where a long form has a condition: that runs into them. -/
theorem disassemble_separates (settings : ListingSettings) (word : Word)
    (operated : (Instruction.decode word).hasOperands = true) :
    ∃ blanks, (disassemble settings word).Separates (Condition.ofWord word) blanks ∧
      (0 < blanks ↔ ¬ ((Instruction.decode word).isLong = true ∧ Condition.ofWord word ≠ .al)) := by
  obtain ⟨name, suffixes, operands, layout, unspaced, starts, reaches⟩ :=
    @Instruction.spelled_render settings.style (Condition.ofWord word) _ operated
  let mnemonic := name ++ (Condition.ofWord word).suffix ++ suffixes
  refine ⟨8 - mnemonic.length, ⟨name, suffixes, operands, layout, unspaced, starts, ?_, ?_⟩, ?_⟩
  · show Layout.text ((Instruction.decode word).render settings.style (Condition.ofWord word)) = _
    rw [layout]
    rfl
  · show 8 ≤ mnemonic.length + (8 - mnemonic.length)
    omega
  · rw [← bne_iff_ne, ← Bool.and_eq_true, ← reaches]
    show 0 < 8 - mnemonic.length ↔ ¬ 8 ≤ mnemonic.length
    omega

/-- A long multiply that sets the flags leaves two blanks if it has no condition. -/
theorem disassemble_separates_unconditional :
    ∃ blanks, (disassemble ⟨.arm7, .little, false⟩ 0xE0910392).Separates .al blanks ∧ 0 < blanks := by
  obtain ⟨blanks, separates, apart⟩ := disassemble_separates ⟨.arm7, .little, false⟩ 0xE0910392 rfl
  exact ⟨blanks, separates, apart.mpr fun long => long.2 rfl⟩

/-- With a condition it leaves none. -/
theorem disassemble_crowded :
    ¬ ∀ (settings : ListingSettings) (word : Word), (Instruction.decode word).hasOperands = true →
      ∃ blanks, (disassemble settings word).Separates (Condition.ofWord word) blanks ∧ 0 < blanks := by
  intro separated
  obtain ⟨blanks, ⟨name, suffixes, operands, layout, -, -, text, -⟩, some_blank⟩ :=
    separated ⟨.arm7, .little, false⟩ 0x00910392 rfl
  have crowded : (disassemble ⟨.arm7, .little, false⟩ 0x00910392).layout =
      .columns "umulleqs" "r0, r1, r2, r3" := by decide
  obtain ⟨mnemonic, rest⟩ := Layout.columns.inj (crowded.symm.trans layout)
  have together : (disassemble ⟨.arm7, .little, false⟩ 0x00910392).text = "umulleqsr0, r1, r2, r3" := by decide
  rw [together, ← mnemonic, ← rest] at text
  have letters := congrArg String.length text
  have padding : (String.ofList (List.replicate blanks ' ')).length = blanks := by simp
  rw [String.length_append, String.length_append, padding] at letters
  have counts : 22 = 8 + blanks + 14 := letters
  omega

end Arm32
