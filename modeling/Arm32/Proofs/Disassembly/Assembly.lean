import Arm32.Proofs.Disassembly.Mnemonics
import Arm32.Proofs.Disassembly.Operands
import Arm32.Proofs.Encoding.Core

/-! What the text of an instruction is made of. For the classes that are spelled out in full it is a stem, an ending
and the pieces of the operands, and none of these can be mistaken in the text. -/

namespace Arm32

open Piece

/-- The text of an instruction, but for the condition. -/
structure Assembly where
  stem : Stem
  ending : String
  listed : ending ∈ endings
  operands : List Piece
  separate : Separate operands
  /-- Operands start with a register, or with the name of the status register. -/
  starts : ∀ piece ∈ operands.head?, (∃ reg, piece = .register reg) ∨ piece = mark 'C'

namespace Assembly

variable {assembly other : Assembly} {style : ImmediateStyle} {condition condition' : Condition}

def layout (assembly : Assembly) (style : ImmediateStyle) (condition : Condition) : Layout :=
  .columns (assembly.stem.text ++ condition.suffix ++ assembly.ending) (String.ofList (text style assembly.operands))

theorem endsMnemonic_of_mem_head? :
    ∀ char ∈ (String.ofList (text style assembly.operands)).toList.head?, Layout.endsMnemonic char = true := by
  rw [String.toList_ofList]
  have starts := assembly.starts
  cases operands : assembly.operands with
  | nil => simp
  | cons piece rest =>
      rw [operands] at starts
      rcases starts piece rfl with ⟨reg, rfl⟩ | rfl
      · simp [chars_register, Layout.endsMnemonic]
      · simp [chars, Layout.endsMnemonic]

theorem columns_eq_layout {mnemonic operands : String}
    (named : mnemonic = assembly.stem.text ++ condition.suffix ++ assembly.ending)
    (written : text style assembly.operands = operands.toList) :
    .columns mnemonic operands = assembly.layout style condition := by
  rw [layout, named, written, String.ofList_toList]

/-- The text says everything. -/
theorem layout_inj (same : (assembly.layout style condition).text = (other.layout style condition').text) :
    assembly = other ∧ condition = condition' := by
  obtain ⟨stems, conditions, endings, written⟩ :=
    Layout.columns_inj assembly.listed other.listed endsMnemonic_of_mem_head? endsMnemonic_of_mem_head? same
  have operands : assembly.operands = other.operands :=
    text_inj assembly.separate other.separate (String.ofList_inj.mp written)
  refine ⟨?_, conditions⟩
  cases assembly
  cases other
  simp only at stems endings operands
  subst stems endings operands
  rfl

end Assembly

variable {style : ImmediateStyle} {condition : Condition}

theorem flagSuffix_mem_endings (setFlags : Bool) : flagSuffix setFlags ∈ endings := by cases setFlags <;> decide

theorem flagSuffix_inj {first second : Bool} (same : flagSuffix first = flagSuffix second) : first = second := by
  cases first <;> cases second <;> first | rfl | exact absurd same (by decide)

namespace DataProcessing

variable {fields other : DataProcessing}

/-- The registers in front of the second operand. -/
def registers (fields : DataProcessing) : List Piece :=
  if fields.op.isTest then .register fields.rn :: comma
  else if fields.op.isMove then .register fields.rd :: comma
  else .register fields.rd :: comma ++ .register fields.rn :: comma

def assembly (fields : DataProcessing) : Assembly where
  stem := .alu fields.op
  ending := if fields.op.isTest then "" else flagSuffix fields.setFlags
  listed := by
    split
    · decide
    · exact flagSuffix_mem_endings fields.setFlags
  operands := fields.registers ++ fields.operand.pieces
  separate := by
    unfold registers
    split
    · simpa [Separate, comma, closes] using Operand2.separate_pieces
    · split <;> simpa [Separate, comma, closes] using Operand2.separate_pieces
  starts := by
    unfold registers
    split
    · simp
    · split <;> simp

theorem render_eq_layout : fields.render style condition = fields.assembly.layout style condition := by
  have operand : text style fields.operand.pieces = (fields.operand.render style).toList := Operand2.text_pieces
  cases isTest : fields.op.isTest with
  | true =>
      simp only [render, isTest, if_true]
      refine Assembly.columns_eq_layout ?_ ?_
      · simp [assembly, isTest, Stem.text]
      · simp [assembly, registers, isTest, operand, chars]
  | false =>
      cases isMove : fields.op.isMove with
      | true =>
          simp only [render, isTest, isMove, if_true, Bool.false_eq_true, if_false]
          refine Assembly.columns_eq_layout ?_ ?_
          · simp [assembly, isTest, Stem.text]
          · simp [assembly, registers, isTest, isMove, operand, chars]
      | false =>
          simp only [render, isTest, isMove, Bool.false_eq_true, if_false]
          refine Assembly.columns_eq_layout ?_ ?_
          · simp [assembly, isTest, Stem.text]
          · simp [assembly, registers, isTest, isMove, operand, chars]

end DataProcessing

namespace PsrOp

variable {op other : PsrOp}

/-- The status register as a destination, with what follows it. -/
def toFlags : List Piece := marks "CPSR_flg" ++ comma

def assembly? : PsrOp → Option Assembly
  | read rd => some
    { stem := .readStatus, ending := "", listed := by decide
      operands := .register rd :: comma ++ marks "CPSR"
      separate := by simp [Separate, comma, marks, closes]
      starts := by simp }
  | write rm | writeFlags (.register rm) => some
    { stem := .writeStatus, ending := "", listed := by decide
      operands := toFlags ++ [.register rm]
      separate := by simp [toFlags, Separate, comma, marks]
      starts := by simp [toFlags, marks] }
  | writeFlags (.immediate field) => some
    { stem := .writeStatus, ending := "", listed := by decide
      operands := toFlags ++ [.immediate (Shifter.immediate field)]
      separate := by simp [toFlags, Separate, comma, marks]
      starts := by simp [toFlags, marks] }
  | undefined => none

theorem render_eq_layout {assembly : Assembly} (spelled : op.assembly? = some assembly) :
    op.render style condition = assembly.layout style condition := by
  match op, spelled with
  | read rd, rfl => exact Assembly.columns_eq_layout (by simp [Stem.text]) (by simp [chars])
  | write rm, rfl => exact Assembly.columns_eq_layout (by simp [Stem.text]) (by simp [toFlags, chars])
  | writeFlags (.register rm), rfl => exact Assembly.columns_eq_layout (by simp [Stem.text]) (by simp [toFlags, chars])
  | writeFlags (.immediate field), rfl =>
      exact Assembly.columns_eq_layout (by simp [Stem.text]) (by simp [toFlags, chars])

end PsrOp

namespace Multiply

variable {fields other : Multiply}

/-- The addend, of the one operation that has it. -/
def addend (fields : Multiply) : List Piece :=
  match fields.op with
  | .mla => comma ++ [.register fields.rn]
  | .mul => []

def assembly (fields : Multiply) : Assembly where
  stem := .multiply fields.op
  ending := flagSuffix fields.setFlags
  listed := flagSuffix_mem_endings fields.setFlags
  operands := .register fields.rd :: comma ++ .register fields.rm :: comma ++ .register fields.rs :: fields.addend
  separate := by cases op : fields.op <;> simp [Separate, comma, closes, addend, op]
  starts := by simp

theorem render_eq_layout : fields.render condition = fields.assembly.layout style condition := by
  refine Assembly.columns_eq_layout ?_ ?_
  · simp [assembly, Stem.text]
  · cases op : fields.op <;> simp [assembly, addend, op, chars]

/-- The addend of a plain multiply is not written, and not allowed either. -/
theorem assembly_inj (permitted : fields.isForbidden = false) (permittedAfter : other.isForbidden = false)
    (same : fields.assembly = other.assembly) : fields = other := by
  obtain ⟨op, setFlags, rd, rn, rs, rm⟩ := fields
  obtain ⟨op', setFlags', rd', rn', rs', rm'⟩ := other
  obtain rfl : op = op' := Stem.multiply.inj (congrArg Assembly.stem same)
  obtain rfl : setFlags = setFlags' := flagSuffix_inj (congrArg Assembly.ending same)
  have operands := congrArg Assembly.operands same
  cases op with
  | mla =>
      obtain ⟨rfl, rfl, rfl, rfl⟩ : rd = rd' ∧ rm = rm' ∧ rs = rs' ∧ rn = rn' := by
        simpa [assembly, addend, comma] using operands
      rfl
  | mul =>
      obtain ⟨rfl, rfl, rfl⟩ : rd = rd' ∧ rm = rm' ∧ rs = rs' := by simpa [assembly, addend, comma] using operands
      have addend : rn = 0 := by simpa using (Bool.or_eq_false_iff.mp permitted).2
      have addendAfter : rn' = 0 := by simpa using (Bool.or_eq_false_iff.mp permittedAfter).2
      rw [addend, addendAfter]

end Multiply

namespace MultiplyLong

variable {fields other : MultiplyLong}

def assembly (fields : MultiplyLong) : Assembly where
  stem := .multiplyLong fields.op
  ending := flagSuffix fields.setFlags
  listed := flagSuffix_mem_endings fields.setFlags
  operands := .register fields.rdLow :: comma ++ .register fields.rdHigh :: comma ++ .register fields.rm :: comma ++
    [.register fields.rs]
  separate := by simp [Separate, comma, closes]
  starts := by simp

theorem render_eq_layout : fields.render condition = fields.assembly.layout style condition := by
  refine Assembly.columns_eq_layout ?_ ?_
  · simp [assembly, Stem.text]
  · simp [assembly, chars]

theorem assembly_inj (same : fields.assembly = other.assembly) : fields = other := by
  obtain ⟨op, setFlags, rdHigh, rdLow, rs, rm⟩ := fields
  obtain ⟨op', setFlags', rdHigh', rdLow', rs', rm'⟩ := other
  obtain rfl : op = op' := Stem.multiplyLong.inj (congrArg Assembly.stem same)
  obtain rfl : setFlags = setFlags' := flagSuffix_inj (congrArg Assembly.ending same)
  obtain ⟨rfl, rfl, rfl, rfl⟩ : rdLow = rdLow' ∧ rdHigh = rdHigh' ∧ rm = rm' ∧ rs = rs' := by
    simpa [assembly, comma] using congrArg Assembly.operands same
  rfl

end MultiplyLong

/-- The count of leading zeros has a destination and an operand. -/
def countAssembly (rd rm : Reg) : Assembly where
  stem := .countLeadingZeros
  ending := ""
  listed := by decide
  operands := .register rd :: comma ++ [.register rm]
  separate := by simp [Separate, comma, closes]
  starts := by simp

theorem countAssembly_eq_layout {rd rm : Reg} :
    .columns ("clz" ++ condition.suffix) (rd.name ++ ", " ++ rm.name) =
      (countAssembly rd rm).layout style condition := by
  refine Assembly.columns_eq_layout ?_ ?_
  · simp [countAssembly, Stem.text]
  · simp [countAssembly, chars]

theorem countAssembly_inj {rd rm rd' rm' : Reg} (same : countAssembly rd rm = countAssembly rd' rm') :
    rd = rd' ∧ rm = rm' := by
  simpa [countAssembly, comma] using congrArg Assembly.operands same

theorem Quantity.suffix_mem_endings (quantity : Quantity) : quantity.suffix ∈ endings := by
  cases quantity <;> decide

theorem Quantity.suffix_inj {first second : Quantity} (same : first.suffix = second.suffix) : first = second := by
  cases first <;> cases second <;> first | rfl | exact absurd same (by decide)

namespace Swap

variable {fields other : Swap}

def assembly (fields : Swap) : Assembly where
  stem := .swap
  ending := fields.quantity.suffix
  listed := fields.quantity.suffix_mem_endings
  operands := .register fields.rd :: comma ++ .register fields.rm :: comma ++
    [mark '[', .register fields.rn, mark ']']
  separate := by simp [Separate, comma, closes]
  starts := by simp

theorem render_eq_layout : fields.render condition = fields.assembly.layout style condition := by
  refine Assembly.columns_eq_layout ?_ ?_
  · simp [assembly, Stem.text]
  · simp [assembly, chars]

theorem assembly_inj (same : fields.assembly = other.assembly) : fields = other := by
  obtain ⟨quantity, rn, rd, rm⟩ := fields
  obtain ⟨quantity', rn', rd', rm'⟩ := other
  obtain rfl : quantity = quantity' := Quantity.suffix_inj (congrArg Assembly.ending same)
  obtain ⟨rfl, rfl, rfl⟩ : rd = rd' ∧ rm = rm' ∧ rn = rn' := by
    simpa [assembly, comma] using congrArg Assembly.operands same
  rfl

end Swap

namespace SingleTransfer

variable {fields other : SingleTransfer}

def address (fields : SingleTransfer) : List Piece :=
  match fields.offset with
  | .immediate offset => fields.mode.immediatePieces fields.rn (fields.printed offset)
  | .register operand => fields.mode.registerPieces fields.rn operand.pieces

def assembly (fields : SingleTransfer) : Assembly where
  stem := .transfer fields.transfer
  ending := fields.quantity.suffix
  listed := fields.quantity.suffix_mem_endings
  operands := .register fields.rd :: comma ++ fields.address
  separate := by
    have address : Separate fields.address := by
      unfold address
      split
      · exact Addressing.separate_immediatePieces
      · exact Addressing.separate_registerPieces ShiftedRegister.separate_pieces
    simpa [Separate, comma, closes] using address
  starts := by simp

theorem render_eq_layout (quiet : fields.notes condition = []) :
    fields.render style condition = fields.assembly.layout style condition := by
  have single := (rules_of_quiet quiet).2
  have ending : writeBackSuffix fields.mode = "" := by
    refine if_neg fun both => ?_
    simp [both.1, both.2] at single
  rw [render, ending]
  refine Assembly.columns_eq_layout ?_ ?_
  · simp [assembly, Stem.text]
  · show text style (.register fields.rd :: comma ++ fields.address) = _
    unfold address
    cases fields.offset with
    | immediate offset => simp [chars, Addressing.text_immediatePieces]
    | register operand => simp [chars, Addressing.text_registerPieces ShiftedRegister.text_pieces]

end SingleTransfer

namespace HalfwordTransfer

variable {fields other : HalfwordTransfer}

theorem suffix_mem_endings (kind : HalfwordKind) : kind.suffix ∈ endings := by cases kind <;> decide

theorem suffix_inj {first second : HalfwordKind} (same : first.suffix = second.suffix) : first = second := by
  cases first <;> cases second <;> first | rfl | exact absurd same (by decide)

def address (fields : HalfwordTransfer) : List Piece :=
  match fields.offset with
  | .immediate offset => fields.mode.immediatePieces fields.rn (fields.printed offset)
  | .register rm => fields.mode.registerPieces fields.rn [.register rm]

def assembly (fields : HalfwordTransfer) : Assembly where
  stem := .transfer fields.transfer
  ending := fields.kind.suffix
  listed := suffix_mem_endings fields.kind
  operands := .register fields.rd :: comma ++ fields.address
  separate := by
    have address : Separate fields.address := by
      unfold address
      split
      · exact Addressing.separate_immediatePieces
      · exact Addressing.separate_registerPieces (by simp [Separate])
    simpa [Separate, comma, closes] using address
  starts := by simp

theorem render_eq_layout : fields.render style condition = fields.assembly.layout style condition := by
  refine Assembly.columns_eq_layout ?_ ?_
  · simp [assembly, Stem.text]
  · show text style (.register fields.rd :: comma ++ fields.address) = _
    unfold address
    cases fields.offset with
    | immediate offset => simp [chars, Addressing.text_immediatePieces]
    | register rm =>
        have single : text style [.register rm] = rm.name.toList := by simp [chars]
        simp [chars, Addressing.text_registerPieces single]

end HalfwordTransfer

namespace BlockTransfer

variable {fields other : BlockTransfer}

theorem modeSuffix_mem_endings (mode : Addressing) : modeSuffix mode ∈ endings := by
  unfold modeSuffix
  cases mode.direction <;> cases mode.indexing <;> decide

theorem modeSuffix_inj {first second : Addressing} (same : modeSuffix first = modeSuffix second) :
    first.direction = second.direction ∧ first.indexing = second.indexing := by
  obtain ⟨indexing, direction, writeBack⟩ := first
  obtain ⟨indexing', direction', writeBack'⟩ := second
  cases direction <;> cases direction' <;> cases indexing <;> cases indexing' <;> simp_all [modeSuffix]

def register? : Piece → Option Reg
  | .register reg => some reg
  | _ => none

/-- Registers with commas between them. -/
def listPieces : List Reg → List Piece
  | [] => []
  | [reg] => [.register reg]
  | reg :: next :: rest => .register reg :: comma ++ listPieces (next :: rest)

theorem filterMap_register?_listPieces (regs : List Reg) : (listPieces regs).filterMap register? = regs := by
  induction regs with
  | nil => rfl
  | cons reg rest ih =>
      cases rest with
      | nil => rfl
      | cons next rest => simpa [listPieces, comma, register?, List.filterMap_cons] using ih

theorem text_listPieces (regs : List Reg) :
    text style (listPieces regs) = (", ".intercalate (regs.map Reg.name)).toList := by
  induction regs with
  | nil => rfl
  | cons reg rest ih =>
      cases rest with
      | nil => simp [listPieces, chars]
      | cons next rest => simp_all [listPieces, chars]

theorem separate_listPieces (regs : List Reg) : Separate (listPieces regs) := by
  induction regs with
  | nil => trivial
  | cons reg rest ih =>
      cases rest with
      | nil => simp [listPieces, Separate]
      | cons next rest => simpa [listPieces, Separate, comma, closes] using ih

def assembly (fields : BlockTransfer) : Assembly where
  stem := .block fields.transfer
  ending := modeSuffix fields.mode
  listed := modeSuffix_mem_endings fields.mode
  operands := .register fields.rn :: fields.mode.writeBackPieces ++ comma ++
    mark '\x7b' :: (listPieces fields.registers ++ [mark '\x7d'])
  separate := by
    have listed : Separate (listPieces fields.registers ++ [mark '\x7d']) :=
      (separate_listPieces fields.registers).append (by simp [Separate]) (by simp [closes])
    unfold Addressing.writeBackPieces
    split <;> simpa [Separate, comma, closes] using listed
  starts := by simp

theorem render_eq_layout : fields.render condition = fields.assembly.layout style condition := by
  refine Assembly.columns_eq_layout ?_ ?_
  · simp [assembly, Stem.text]
  · cases writeBack : fields.mode.writeBack <;>
      simp [assembly, Addressing.writeBackPieces, writeBack, chars, text_listPieces]

theorem list_eq_of_registers_eq (same : fields.registers = other.registers) : fields.list = other.list := by
  refine BitVec.eq_of_getLsbD_eq fun place within => ?_
  have bit (fields : BlockTransfer) : fields.list.getLsbD place = fields.lists (BitVec.ofNat 4 place) := by
    rw [lists, BitVec.toNat_ofNat, Nat.mod_eq_of_lt within]
  rw [bit, bit, Bool.eq_iff_iff, ← mem_registers, ← mem_registers, same]

/-- The bit for the user bank is not written, and not allowed either. -/
theorem assembly_inj (permitted : fields.isForbidden = false) (permittedAfter : other.isForbidden = false)
    (same : fields.assembly = other.assembly) : fields = other := by
  have privileged : fields.privileged = other.privileged := by
    have user := (Bool.or_eq_false_iff.mp (Bool.or_eq_false_iff.mp permitted).1).1
    have userAfter := (Bool.or_eq_false_iff.mp (Bool.or_eq_false_iff.mp permittedAfter).1).1
    rw [user, userAfter]
  have transfer : fields.transfer = other.transfer := Stem.block.inj (congrArg Assembly.stem same)
  obtain ⟨direction, indexing⟩ := modeSuffix_inj (congrArg Assembly.ending same)
  obtain ⟨base, following⟩ := List.cons.inj (congrArg Assembly.operands same)
  have writeBack : fields.mode.writeBack = other.mode.writeBack := by
    cases first : fields.mode.writeBack <;> cases second : other.mode.writeBack <;>
      simp [Addressing.writeBackPieces, first, second, comma] at following ⊢
  have pieces : listPieces fields.registers = listPieces other.registers := by
    simpa [Addressing.writeBackPieces, writeBack] using following
  have list : fields.list = other.list := by
    refine list_eq_of_registers_eq ?_
    rw [← filterMap_register?_listPieces fields.registers, pieces, filterMap_register?_listPieces]
  calc fields
    _ = ⟨⟨fields.mode.indexing, fields.mode.direction, fields.mode.writeBack⟩, fields.privileged, fields.transfer,
          fields.rn, fields.list⟩ := rfl
    _ = ⟨⟨other.mode.indexing, other.mode.direction, other.mode.writeBack⟩, other.privileged, other.transfer,
          other.rn, other.list⟩ := by
      rw [indexing, direction, writeBack, privileged, transfer, Piece.register.inj base, list]

end BlockTransfer

end Arm32
