import Arm32.Proofs.Disassembly.Assembly
import Arm32.Proofs.Emulation.Steps
import Arm32.Proofs.Encoding.Execution

/-! What the text of an instruction says is what it does. Instructions that are spelled alike and carry no notes differ
in bits that execution does not look at, or in how an immediate is encoded. -/

namespace Arm32

open Machine Piece

variable {machine : Machine} {condition : Condition}

/-! ### Data processing -/

theorem AluOp.compute_of_isMove {op : AluOp} (isMove : op.isMove = true) (first other second : Word) (carry : Bool) :
    op.compute first second carry = op.compute other second carry := by
  cases op <;> first | rfl | cases isMove

namespace DataProcessing

variable {fields other : DataProcessing}

/-- A test does not look at the destination, nor a move at the first operand. -/
theorem dataProcessing_congr (op : fields.op = other.op) (flags : fields.setFlags = other.setFlags)
    (first : fields.op.isMove = true ∨ fields.rn = other.rn) (destination : fields.op.isTest = true ∨ fields.rd = other.rd)
    (second : machine.operand2 fields.operand = machine.operand2 other.operand)
    (ahead : firstAhead fields.operand = firstAhead other.operand) :
    machine.dataProcessing fields = machine.dataProcessing other := by
  have check : checkFlagBit fields = checkFlagBit other := by
    rw [checkFlagBit, checkFlagBit, ← op, ← flags]
    rcases destination with isTest | destination
    · rw [if_pos isTest, if_pos isTest]
    · rw [destination]
  have compute (value : Word) (carry : Bool) :
      fields.op.compute (machine.operand fields.rn (firstAhead fields.operand)) value carry =
        other.op.compute (machine.operand other.rn (firstAhead other.operand)) value carry := by
    rw [← op, ← ahead]
    rcases first with isMove | first
    · exact AluOp.compute_of_isMove isMove _ _ value carry
    · rw [first]
  simp only [Machine.dataProcessing, check, compute, second, ← flags, ← op]
  rcases destination with isTest | destination
  · simp only [isTest, if_true]
  · rw [destination]

theorem operand2_eq_of_pieces {operand other : Operand2} (permitted : operand.isForbidden = false)
    (permittedAfter : other.isForbidden = false) (same : operand.pieces = other.pieces) :
    machine.operand2 operand = machine.operand2 other ∧ firstAhead operand = firstAhead other := by
  rcases Operand2.pieces_inj permitted permittedAfter same with ⟨base, rotate, base', rotate', rfl, rfl, value⟩ | rfl
  · exact ⟨by rw [operand2, operand2, value], rfl⟩
  · exact ⟨rfl, rfl⟩

theorem setFlags_of_isTest (permitted : fields.isForbidden = false) (isTest : fields.op.isTest = true) :
    fields.setFlags = true := by
  simpa [isTest] using (Bool.or_eq_false_iff.mp permitted).1

theorem dataProcessing_eq_of_assembly (permitted : fields.isForbidden = false)
    (permittedAfter : other.isForbidden = false) (same : fields.assembly = other.assembly) :
    machine.dataProcessing fields = machine.dataProcessing other := by
  have op : fields.op = other.op := Stem.alu.inj (congrArg Assembly.stem same)
  have flags : fields.setFlags = other.setFlags := by
    have ending := congrArg Assembly.ending same
    simp only [assembly, ← op] at ending
    cases isTest : fields.op.isTest with
    | true => rw [setFlags_of_isTest permitted isTest, setFlags_of_isTest permittedAfter (op ▸ isTest)]
    | false => exact flagSuffix_inj (by simpa [isTest] using ending)
  have operands : fields.registers ++ fields.operand.pieces = other.registers ++ other.operand.pieces :=
    congrArg Assembly.operands same
  obtain ⟨first, destination, pieces⟩ : (fields.op.isMove = true ∨ fields.rn = other.rn) ∧
      (fields.op.isTest = true ∨ fields.rd = other.rd) ∧ fields.operand.pieces = other.operand.pieces := by
    simp only [registers, ← op] at operands
    cases isTest : fields.op.isTest with
    | true => simp_all [comma]
    | false => cases isMove : fields.op.isMove <;> simp_all [comma]
  obtain ⟨second, ahead⟩ := operand2_eq_of_pieces (Bool.or_eq_false_iff.mp permitted).2
    (Bool.or_eq_false_iff.mp permittedAfter).2 pieces
  exact dataProcessing_congr op flags first destination second ahead

end DataProcessing

/-! ### Moves to and from the status register -/

namespace PsrOp

variable {op other : PsrOp} {assembly : Assembly}

/-- The two ways to move a register to the flags are written alike, and are the same. -/
theorem psrTransfer_writeFlags_register (rm : Reg) :
    machine.psrTransfer (.writeFlags (.register rm)) = machine.psrTransfer (.write rm) := rfl

theorem assembly?_cases (machine : Machine) (spelled : op.assembly? = some assembly) :
    (∃ rd, op = read rd ∧ assembly.stem = .readStatus ∧ assembly.operands = .register rd :: comma ++ marks "CPSR") ∨
      (∃ rm, machine.psrTransfer op = machine.psrTransfer (.write rm) ∧ assembly.stem = .writeStatus ∧
        assembly.operands = toFlags ++ [.register rm]) ∨
      ∃ field, op = writeFlags (.immediate field) ∧ assembly.stem = .writeStatus ∧
        assembly.operands = toFlags ++ [.immediate (Shifter.immediate field)] := by
  match op, spelled with
  | read rd, rfl => exact .inl ⟨rd, rfl, rfl, rfl⟩
  | write rm, rfl => exact .inr (.inl ⟨rm, rfl, rfl, rfl⟩)
  | writeFlags (.register rm), rfl => exact .inr (.inl ⟨rm, psrTransfer_writeFlags_register rm, rfl, rfl⟩)
  | writeFlags (.immediate field), rfl => exact .inr (.inr ⟨field, rfl, rfl, rfl⟩)

theorem psrTransfer_eq_of_assembly (spelled : op.assembly? = some assembly)
    (spelledAfter : other.assembly? = some assembly) : machine.psrTransfer op = machine.psrTransfer other := by
  rcases assembly?_cases machine spelled with ⟨rd, rfl, stem, operands⟩ | ⟨rm, moved, stem, operands⟩ |
    ⟨field, rfl, stem, operands⟩
  · rcases assembly?_cases machine spelledAfter with ⟨rd', rfl, -, operands'⟩ | ⟨rm', -, stem', -⟩ |
      ⟨field', rfl, stem', -⟩
    · rw [operands] at operands'
      rw [Piece.register.inj (List.cons.inj operands').1]
    · cases stem.symm.trans stem'
    · cases stem.symm.trans stem'
  · rcases assembly?_cases machine spelledAfter with ⟨rd', rfl, stem', -⟩ | ⟨rm', moved', -, operands'⟩ |
      ⟨field', rfl, -, operands'⟩
    · cases stem.symm.trans stem'
    · rw [operands, List.append_cancel_left_eq] at operands'
      rw [moved, moved', Piece.register.inj (List.cons.inj operands').1]
    · rw [operands, List.append_cancel_left_eq] at operands'
      cases (List.cons.inj operands').1
  · rcases assembly?_cases machine spelledAfter with ⟨rd', rfl, stem', -⟩ | ⟨rm', -, -, operands'⟩ |
      ⟨field', rfl, -, operands'⟩
    · cases stem.symm.trans stem'
    · rw [operands, List.append_cancel_left_eq] at operands'
      cases (List.cons.inj operands').1
    · rw [operands, List.append_cancel_left_eq] at operands'
      rw [Machine.psrTransfer, Machine.psrTransfer, Piece.immediate.inj (List.cons.inj operands').1]

end PsrOp

/-! ### Addresses -/

theorem Direction.apply_eq_add (direction : Direction) (base amount : Word) :
    direction.apply base amount = base + direction.apply 0 amount := by
  cases direction <;> simp only [apply] <;> bv_omega

namespace Addressing

variable {mode other : Addressing} {rn : Reg} {amount : Word}

/-- The machine after a transfer whose offset moves the base by this much, and the address of the access. -/
def moved (mode : Addressing) (machine : Machine) (rn : Reg) (shift : Word) : Machine × Word :=
  (if mode.updatesBase then machine.write rn (machine.read rn + shift) else machine,
    match mode.indexing with
    | .pre => machine.read rn + shift
    | .post => machine.read rn)

theorem transferAddress_eq_moved (counter : rn ≠ Reg.pc) (single : (mode.indexing == .post && mode.writeBack) = false) :
    machine.transferAddress mode rn amount = .ok (mode.moved machine rn (mode.direction.apply 0 amount)) := by
  have updated := mode.direction.apply_eq_add (machine.read rn) amount
  unfold transferAddress moved updatesBase
  cases indexing : mode.indexing <;> cases writeBack : mode.writeBack <;>
    simp_all [require, bind, Except.bind, pure, Except.pure]

/-- No offset leaves the machine as it is, however it is used. -/
theorem moved_zero : mode.moved machine rn 0 = (machine, machine.read rn) := by
  have kept := machine.write_read rn
  have zero : machine.read rn + 0 = machine.read rn := BitVec.add_zero _
  unfold moved
  rw [zero, kept, ite_self]
  cases mode.indexing <;> rfl

end Addressing

/-- Where the text of two addresses with immediate offsets is the same, so are the transfers. -/
theorem transferAddress_eq_of_immediatePieces {mode other : Addressing} {rn rn' : Reg} {amount amount' : Word}
    (counter : rn ≠ Reg.pc) (counterAfter : rn' ≠ Reg.pc) (single : (mode.indexing == .post && mode.writeBack) = false)
    (singleAfter : (other.indexing == .post && other.writeBack) = false)
    (same : mode.immediatePieces rn (mode.direction.apply 0 amount) =
      other.immediatePieces rn' (other.direction.apply 0 amount')) :
    machine.transferAddress mode rn amount = machine.transferAddress other rn' amount' := by
  obtain ⟨rfl, shift, use⟩ := Addressing.immediatePieces_inj same
  rw [Addressing.transferAddress_eq_moved counter single, Addressing.transferAddress_eq_moved counterAfter singleAfter,
    ← shift]
  rcases use with zero | ⟨indexing, writeBack⟩
  · rw [zero, Addressing.moved_zero, Addressing.moved_zero]
  · have updates : mode.updatesBase = other.updatesBase := by
      unfold Addressing.updatesBase
      cases first : mode.indexing <;> simp_all
    rw [Addressing.moved, Addressing.moved, indexing, updates]

/-- With a register offset the text leaves nothing out. -/
theorem Addressing.eq_of_registerPieces {mode other : Addressing} {rn rn' rm rm' : Reg} {pieces pieces' : List Piece}
    (plain : mark ']' ∉ pieces) (single : (mode.indexing == .post && mode.writeBack) = false)
    (singleAfter : (other.indexing == .post && other.writeBack) = false)
    (same : mode.registerPieces rn (.register rm :: pieces) = other.registerPieces rn' (.register rm' :: pieces')) :
    mode = other ∧ rn = rn' ∧ rm = rm' ∧ pieces = pieces' := by
  obtain ⟨base, offset, rest, indexing, direction, pre⟩ := Addressing.registerPieces_inj plain same
  refine ⟨?_, base, offset, rest⟩
  have writeBack : mode.writeBack = other.writeBack := by
    cases first : mode.indexing <;> simp_all
  calc mode
    _ = ⟨mode.indexing, mode.direction, mode.writeBack⟩ := rfl
    _ = ⟨other.indexing, other.direction, other.writeBack⟩ := by rw [indexing, direction, writeBack]

/-! ### Transfers -/

theorem TransferOffset.isForbidden_of_register {operand : ShiftedRegister}
    (permitted : (TransferOffset.register operand).isForbidden = false) : operand.isForbidden = false := by
  unfold ShiftedRegister.isForbidden
  cases amount : operand.amount with
  | immediate places => rfl
  | register rs reserved => simp [TransferOffset.isForbidden, amount, ShiftAmount.isRegister] at permitted

theorem SingleTransfer.printed_eq {fields : SingleTransfer} (counter : fields.rn ≠ Reg.pc) (offset : BitVec 12) :
    fields.printed offset = fields.mode.direction.apply 0 (offset.setWidth 32) := if_neg counter

theorem HalfwordTransfer.printed_eq {fields : HalfwordTransfer} (counter : fields.rn ≠ Reg.pc) (offset : BitVec 8) :
    fields.printed offset = fields.mode.direction.apply 0 (offset.setWidth 32) := if_neg counter

theorem SingleTransfer.singleTransfer_eq_of_assembly {fields other : SingleTransfer} {condition' : Condition}
    (counter : fields.rn ≠ Reg.pc) (counterAfter : other.rn ≠ Reg.pc) (quiet : fields.notes condition = [])
    (quietAfter : other.notes condition' = []) (same : fields.assembly = other.assembly) :
    machine.singleTransfer fields = machine.singleTransfer other := by
  obtain ⟨permitted, single⟩ := rules_of_quiet quiet
  obtain ⟨permittedAfter, singleAfter⟩ := rules_of_quiet quietAfter
  obtain ⟨data, following⟩ := List.cons.inj (congrArg Assembly.operands same)
  have address : fields.address = other.address := List.append_cancel_left following
  obtain ⟨mode, quantity, transfer, rn, rd, offset⟩ := fields
  obtain ⟨mode', quantity', transfer', rn', rd', offset'⟩ := other
  obtain rfl : transfer = transfer' := Stem.transfer.inj (congrArg Assembly.stem same)
  obtain rfl : quantity = quantity' := Quantity.suffix_inj (congrArg Assembly.ending same)
  obtain rfl : rd = rd' := Piece.register.inj data
  cases offset with
  | immediate offset =>
      cases offset' with
      | immediate offset' =>
          simp only [SingleTransfer.address, printed_eq counter, printed_eq counterAfter] at address
          have moved : machine.transferAddress mode rn (offset.setWidth 32) =
              machine.transferAddress mode' rn' (offset'.setWidth 32) :=
            transferAddress_eq_of_immediatePieces counter counterAfter single singleAfter address
          simp only [Machine.singleTransfer, transferOffset, bind, Except.bind, moved]
      | register operand' => exact absurd address Addressing.immediatePieces_ne_registerPieces
  | register operand =>
      cases offset' with
      | immediate offset' => exact absurd address.symm Addressing.immediatePieces_ne_registerPieces
      | register operand' =>
          obtain ⟨rfl, rfl, registers, shifts⟩ := Addressing.eq_of_registerPieces
            (fun bracket => ShiftedRegister.bracket_not_mem_pieces (List.mem_cons_of_mem _ bracket)) single singleAfter
            address
          have operands : operand = operand' :=
            ShiftedRegister.pieces_inj (TransferOffset.isForbidden_of_register permitted)
              (TransferOffset.isForbidden_of_register permittedAfter)
              (by rw [ShiftedRegister.pieces, ShiftedRegister.pieces, registers, shifts])
          rw [operands]

theorem HalfwordTransfer.halfwordTransfer_eq_of_assembly {fields other : HalfwordTransfer} {condition' : Condition}
    (counter : fields.rn ≠ Reg.pc) (counterAfter : other.rn ≠ Reg.pc) (quiet : fields.notes condition = [])
    (quietAfter : other.notes condition' = []) (same : fields.assembly = other.assembly) :
    machine.halfwordTransfer fields = machine.halfwordTransfer other := by
  have single := (rules_of_quiet quiet).2.2.2
  have singleAfter := (rules_of_quiet quietAfter).2.2.2
  obtain ⟨data, following⟩ := List.cons.inj (congrArg Assembly.operands same)
  have address : fields.address = other.address := List.append_cancel_left following
  obtain ⟨mode, transfer, kind, rn, rd, offset⟩ := fields
  obtain ⟨mode', transfer', kind', rn', rd', offset'⟩ := other
  obtain rfl : transfer = transfer' := Stem.transfer.inj (congrArg Assembly.stem same)
  obtain rfl : kind = kind' := suffix_inj (congrArg Assembly.ending same)
  obtain rfl : rd = rd' := Piece.register.inj data
  cases offset with
  | immediate offset =>
      cases offset' with
      | immediate offset' =>
          simp only [HalfwordTransfer.address, printed_eq counter, printed_eq counterAfter] at address
          have moved : machine.transferAddress mode rn (offset.setWidth 32) =
              machine.transferAddress mode' rn' (offset'.setWidth 32) :=
            transferAddress_eq_of_immediatePieces counter counterAfter single singleAfter address
          simp only [Machine.halfwordTransfer, halfwordOffset, bind, Except.bind, moved]
      | register rm' => exact absurd address Addressing.immediatePieces_ne_registerPieces
  | register rm =>
      cases offset' with
      | immediate offset' => exact absurd address.symm Addressing.immediatePieces_ne_registerPieces
      | register rm' =>
          obtain ⟨rfl, rfl, rfl, -⟩ := Addressing.eq_of_registerPieces List.not_mem_nil single singleAfter address
          rfl

/-! ### Whole instructions -/

namespace Instruction

variable {instruction first second : Instruction} {assembly : Assembly} {style : ImmediateStyle}

/-- The classes whose text says everything, as long as the base of a single or halfword transfer is not the program
counter: its look-ahead is counted into the offset that is printed. -/
def isFaithful : Instruction → Bool
  | dataProcessing _ | psrTransfer _ _ | multiply _ | multiplyLong _ | countLeadingZeros _ _ | swap _
  | blockTransfer _ => true
  | singleTransfer fields => fields.rn != Reg.pc
  | halfwordTransfer fields => fields.rn != Reg.pc
  | _ => false

def assembly? : Instruction → Option Assembly
  | dataProcessing fields => some fields.assembly
  | psrTransfer _ op => op.assembly?
  | multiply fields => some fields.assembly
  | multiplyLong fields => some fields.assembly
  | countLeadingZeros rd rm => some (countAssembly rd rm)
  | swap fields => some fields.assembly
  | halfwordTransfer fields => some fields.assembly
  | singleTransfer fields => some fields.assembly
  | blockTransfer fields => some fields.assembly
  | _ => none

theorem exists_assembly (faithful : instruction.isFaithful = true) (quiet : instruction.notes condition = []) :
    ∃ assembly, instruction.assembly? = some assembly := by
  cases instruction with
  | psrTransfer saved op =>
      cases op with
      | undefined =>
          have listed := (List.append_eq_nil_iff.mp quiet).2
          cases listed
      | writeFlags source => cases source <;> exact ⟨_, rfl⟩
      | _ => exact ⟨_, rfl⟩
  | branch | undefined | coprocessor | vfp => cases faithful
  | _ => exact ⟨_, rfl⟩

theorem render_eq_layout (spelled : instruction.assembly? = some assembly) (quiet : instruction.notes condition = []) :
    instruction.render style condition = assembly.layout style condition := by
  cases instruction with
  | dataProcessing fields =>
      cases spelled
      exact DataProcessing.render_eq_layout
  | psrTransfer saved op => exact PsrOp.render_eq_layout spelled
  | multiply fields =>
      cases spelled
      exact Multiply.render_eq_layout
  | multiplyLong fields =>
      cases spelled
      exact MultiplyLong.render_eq_layout
  | countLeadingZeros rd rm =>
      cases spelled
      exact countAssembly_eq_layout
  | swap fields =>
      cases spelled
      exact Swap.render_eq_layout
  | halfwordTransfer fields =>
      cases spelled
      exact HalfwordTransfer.render_eq_layout
  | singleTransfer fields =>
      cases spelled
      exact SingleTransfer.render_eq_layout quiet
  | blockTransfer fields =>
      cases spelled
      exact BlockTransfer.render_eq_layout
  | branch | undefined | coprocessor | vfp => cases spelled

/-- Which stems a class may have. -/
def fits : Instruction → Stem → Bool
  | dataProcessing _, .alu _ => true
  | psrTransfer _ _, .readStatus | psrTransfer _ _, .writeStatus => true
  | multiply _, .multiply _ => true
  | multiplyLong _, .multiplyLong _ => true
  | countLeadingZeros _ _, .countLeadingZeros => true
  | swap _, .swap => true
  | halfwordTransfer _, .transfer _ | singleTransfer _, .transfer _ => true
  | blockTransfer _, .block _ => true
  | _, _ => false

theorem fits_stem (spelled : instruction.assembly? = some assembly) : instruction.fits assembly.stem = true := by
  cases instruction with
  | psrTransfer saved op =>
      match op, spelled with
      | .read rd, rfl => rfl
      | .write rm, rfl => rfl
      | .writeFlags (.register rm), rfl => rfl
      | .writeFlags (.immediate field), rfl => rfl
  | branch | undefined | coprocessor | vfp => cases spelled
  | _ =>
      cases spelled
      rfl

/-- A byte moved by a single transfer is written like a swap among the halfword transfers, which carries a note. -/
theorem assembly_ne_of_quiet {fields : SingleTransfer} {other : HalfwordTransfer} (quiet : other.notes condition = []) :
    fields.assembly ≠ other.assembly := by
  intro same
  have ending : fields.quantity.suffix = other.kind.suffix := congrArg Assembly.ending same
  have swap := (HalfwordTransfer.rules_of_quiet quiet).1
  cases quantity : fields.quantity <;> cases kind : other.kind <;>
    simp_all [Quantity.suffix, HalfwordKind.suffix]

end Instruction

namespace Machine

variable {first second : Instruction} {assembly : Assembly} {condition' : Condition} {word word' : Word}

theorem perform_eq_of_assembly (faithful : first.isFaithful = true) (faithfulAfter : second.isFaithful = true)
    (quiet : first.notes condition = []) (quietAfter : second.notes condition' = [])
    (spelled : first.assembly? = some assembly) (spelledAfter : second.assembly? = some assembly) :
    machine.perform word first = machine.perform word' second := by
  have fits := Instruction.fits_stem spelledAfter
  cases first with
  | dataProcessing fields =>
      cases spelled
      cases second with
      | dataProcessing other =>
          exact DataProcessing.dataProcessing_eq_of_assembly (DataProcessing.isForbidden_of_quiet quiet)
            (DataProcessing.isForbidden_of_quiet quietAfter) (Option.some.inj spelledAfter).symm
      | _ => cases fits
  | psrTransfer saved op =>
      have stem := Instruction.fits_stem spelled
      cases second with
      | psrTransfer saved' op' => exact congrArg continuing (PsrOp.psrTransfer_eq_of_assembly spelled spelledAfter)
      | _ => cases named : assembly.stem <;> simp [named, Instruction.fits] at stem fits
  | multiply fields =>
      cases spelled
      cases second with
      | multiply other =>
          rw [Multiply.assembly_inj (Multiply.isForbidden_of_quiet quiet) (Multiply.isForbidden_of_quiet quietAfter)
            (Option.some.inj spelledAfter).symm]
          rfl
      | _ => cases fits
  | multiplyLong fields =>
      cases spelled
      cases second with
      | multiplyLong other =>
          rw [MultiplyLong.assembly_inj (Option.some.inj spelledAfter)]
          rfl
      | _ => cases fits
  | countLeadingZeros rd rm =>
      cases spelled
      cases second with
      | countLeadingZeros rd' rm' =>
          obtain ⟨rfl, rfl⟩ := countAssembly_inj (Option.some.inj spelledAfter)
          rfl
      | _ => cases fits
  | swap fields =>
      cases spelled
      cases second with
      | swap other =>
          rw [Swap.assembly_inj (Option.some.inj spelledAfter)]
          rfl
      | _ => cases fits
  | halfwordTransfer fields =>
      cases spelled
      cases second with
      | halfwordTransfer other =>
          exact HalfwordTransfer.halfwordTransfer_eq_of_assembly (bne_iff_ne.mp faithful) (bne_iff_ne.mp faithfulAfter)
            quiet quietAfter (Option.some.inj spelledAfter).symm
      | singleTransfer other =>
          exact absurd (Option.some.inj spelledAfter) (Instruction.assembly_ne_of_quiet quiet)
      | _ => cases fits
  | singleTransfer fields =>
      cases spelled
      cases second with
      | singleTransfer other =>
          exact SingleTransfer.singleTransfer_eq_of_assembly (bne_iff_ne.mp faithful) (bne_iff_ne.mp faithfulAfter)
            quiet quietAfter (Option.some.inj spelledAfter).symm
      | halfwordTransfer other =>
          exact absurd (Option.some.inj spelledAfter).symm (Instruction.assembly_ne_of_quiet quietAfter)
      | _ => cases fits
  | blockTransfer fields =>
      cases spelled
      cases second with
      | blockTransfer other =>
          rw [BlockTransfer.assembly_inj (BlockTransfer.isForbidden_of_quiet quiet)
            (BlockTransfer.isForbidden_of_quiet quietAfter) (Option.some.inj spelledAfter).symm]
          rfl
      | _ => cases fits
  | branch | undefined | coprocessor | vfp => cases faithful

/-- Two words that are disassembled to the same text, without notes, do the same in every state. -/
theorem execute_eq_of_text {first second : Word} (settings : ListingSettings)
    (faithful : (Instruction.decode first).isFaithful = true) (faithfulAfter : (Instruction.decode second).isFaithful = true)
    (quiet : (disassemble settings first).noteLine = "") (quietAfter : (disassemble settings second).noteLine = "")
    (same : (disassemble settings first).text = (disassemble settings second).text) (machine : Machine) :
    machine.execute first = machine.execute second := by
  have notes := Note.line_eq_empty_iff.mp quiet
  have notesAfter := Note.line_eq_empty_iff.mp quietAfter
  obtain ⟨assembly, spelled⟩ := Instruction.exists_assembly faithful notes
  obtain ⟨assembly', spelledAfter⟩ := Instruction.exists_assembly faithfulAfter notesAfter
  have layouts : (assembly.layout settings.style (Condition.ofWord first)).text =
      (assembly'.layout settings.style (Condition.ofWord second)).text := by
    rw [← Instruction.render_eq_layout spelled notes, ← Instruction.render_eq_layout spelledAfter notesAfter]
    exact same
  obtain ⟨rfl, conditions⟩ := Assembly.layout_inj layouts
  rw [execute, execute, ← conditions,
    perform_eq_of_assembly faithful faithfulAfter notes notesAfter spelled spelledAfter]

/-- Pre-indexed or post-indexed, a load without an offset is the same load. -/
theorem execute_load_without_offset :
    (disassemble ⟨.arm7, .little, false⟩ 0xE5910000).text = "ldr     r0, [r1]" ∧
      (disassemble ⟨.arm7, .little, false⟩ 0xE4910000).text = "ldr     r0, [r1]" ∧
      ∀ machine : Machine, machine.execute 0xE5910000 = machine.execute 0xE4910000 := by
  have text : (disassemble ⟨.arm7, .little, false⟩ 0xE5910000).text = "ldr     r0, [r1]" := by decide
  have textAfter : (disassemble ⟨.arm7, .little, false⟩ 0xE4910000).text = "ldr     r0, [r1]" := by decide
  exact ⟨text, textAfter, execute_eq_of_text ⟨.arm7, .little, false⟩ (by decide) (by decide) (by decide) (by decide)
    (text.trans textAfter.symm)⟩

end Machine

end Arm32
