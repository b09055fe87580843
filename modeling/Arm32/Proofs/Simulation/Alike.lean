import Arm32.Proofs.Emulation.Sequence

/-! Two machines side by side, with processors of their own and memories that need not hold the same bytes. What an
instruction does depends on its machine in three ways at most: by the words it loads and stores, by smaller parts of
memory, and by what its processor puts into memory for the program counter. An instruction that meets no difference of
these has the same outcome on both machines. -/

namespace Arm32

namespace Memory

/-- Related images load and store words alike, and a store leaves them related. -/
structure WordsAgree (memories : Image → Image → Prop) : Prop where
  load {first second : Image} (related : memories first second) (address : Word) :
    first.loadWord address = second.loadWord address
  store {first second : Image} (related : memories first second) (address value : Word) :
    Agree memories (first.storeWord address value) (second.storeWord address value)

/-- The same of bytes and halfwords. -/
structure PartsAgree (memories : Image → Image → Prop) : Prop where
  loadByte {first second : Image} (related : memories first second) (address : Word) :
    first.loadByte address = second.loadByte address
  loadHalfword {first second : Image} (related : memories first second) (address : Word) :
    first.loadHalfword address = second.loadHalfword address
  storeByte {first second : Image} (related : memories first second) (address : Word) (value : Byte) :
    Agree memories (first.storeByte address value) (second.storeByte address value)
  storeHalfword {first second : Image} (related : memories first second) (address : Word) (value : BitVec 16) :
    Agree memories (first.storeHalfword address value) (second.storeHalfword address value)

end Memory

namespace Instruction

/-- Moves a byte or a halfword between a register and memory. -/
def movesPart : Instruction → Bool
  | swap fields => fields.quantity == .byte
  | singleTransfer fields => fields.quantity == .byte
  | halfwordTransfer fields =>
    fields.kind != .swap && (fields.transfer == .load || fields.kind == .unsignedHalfword)
  | _ => false

/-- Stores the program counter, or a part of it. -/
def storesProgramCounter : Instruction → Bool
  | singleTransfer fields => fields.transfer == .store && fields.rd == Reg.pc
  | halfwordTransfer fields => fields.transfer == .store && fields.rd == Reg.pc
  | _ => false

end Instruction

namespace Machine

open Memory (Image WordsAgree PartsAgree)

/-- The machines differ in their processors, `one` and `other`, and in their memories, and in nothing else. -/
structure Alike (memories : Image → Image → Prop) (one other : Processor) (first second : Machine) : Prop where
  registers : first.registers = second.registers
  status : first.status = second.status
  vfp : first.vfp = second.vfp
  memory : memories first.memory second.memory
  firstProcessor : first.processor = one
  secondProcessor : second.processor = other

/-- Machines that are alike, with the same thing to go with them. -/
def AlikeWith {α : Type} (memories : Image → Image → Prop) (one other : Processor) (first second : Machine × α) : Prop :=
  Alike memories one other first.1 second.1 ∧ first.2 = second.2

variable {memories : Image → Image → Prop} {one other : Processor} {first second : Machine}

/-! ### Registers -/

namespace Alike

theorem read (alike : Alike memories one other first second) (reg : Reg) : first.read reg = second.read reg :=
  congrArg (·.read reg) alike.registers

theorem operand (alike : Alike memories one other first second) (reg : Reg) (ahead : Word) :
    first.operand reg ahead = second.operand reg ahead := by
  unfold Machine.operand
  rw [alike.read]

theorem storeOperand (alike : Alike memories one other first second) {reg : Reg}
    (shared : reg = Reg.pc → one = other) : first.storeOperand reg = second.storeOperand reg := by
  unfold Machine.storeOperand
  rw [alike.operand, alike.firstProcessor, alike.secondProcessor]
  by_cases counter : reg = Reg.pc
  · rw [shared counter]
  · simp only [Machine.operand, if_neg counter]

theorem write (alike : Alike memories one other first second) (reg : Reg) (value : Word) :
    Alike memories one other (first.write reg value) (second.write reg value) :=
  { alike with registers := congrArg (·.write reg value) alike.registers }

theorem withStatus (alike : Alike memories one other first second) (status : Psr) :
    Alike memories one other { first with status } { second with status } :=
  { alike with status := rfl }

theorem withVfp (alike : Alike memories one other first second) (vfp : Vfp.Registers) :
    Alike memories one other { first with vfp } { second with vfp } :=
  { alike with vfp := rfl }

theorem writeResult (alike : Alike memories one other first second) (reg : Reg) (value : Word) :
    AlikeWith memories one other (first.writeResult reg value) (second.writeResult reg value) :=
  ⟨alike.write reg value, rfl⟩

theorem advance (alike : Alike memories one other first second) (flow : Flow) :
    Alike memories one other (first.advance flow) (second.advance flow) := by
  cases flow with
  | next => exact { alike with registers := congrArg (·.advance instructionBytes) alike.registers }
  | branched => exact alike

/-! ### Memory -/

theorem withMemory (alike : Alike memories one other first second) {before after : Except Memory.Fault Image}
    (agree : Agree memories before after) :
    Agree (Alike memories one other) (first.withMemory before) (second.withMemory after) := by
  cases agree with
  | answers related => exact .answers { alike with memory := related }
  | errors fault => exact .errors _

theorem loadWord (words : WordsAgree memories) (alike : Alike memories one other first second) (address : Word) :
    first.loadWord address = second.loadWord address := by
  unfold Machine.loadWord
  rw [words.load alike.memory]

theorem storeWord (words : WordsAgree memories) (alike : Alike memories one other first second) (address value : Word) :
    Agree (Alike memories one other) (first.storeWord address value) (second.storeWord address value) :=
  alike.withMemory (words.store alike.memory address value)

theorem loadByte (parts : PartsAgree memories) (alike : Alike memories one other first second) (address : Word) :
    first.loadByte address = second.loadByte address := by
  unfold Machine.loadByte
  rw [parts.loadByte alike.memory]

theorem loadHalfword (parts : PartsAgree memories) (alike : Alike memories one other first second) (address : Word) :
    first.loadHalfword address = second.loadHalfword address := by
  unfold Machine.loadHalfword
  rw [parts.loadHalfword alike.memory]

theorem storeByte (parts : PartsAgree memories) (alike : Alike memories one other first second) (address : Word)
    (value : Byte) :
    Agree (Alike memories one other) (first.storeByte address value) (second.storeByte address value) :=
  alike.withMemory (parts.storeByte alike.memory address value)

theorem storeHalfword (parts : PartsAgree memories) (alike : Alike memories one other first second) (address : Word)
    (value : BitVec 16) :
    Agree (Alike memories one other) (first.storeHalfword address value) (second.storeHalfword address value) :=
  alike.withMemory (parts.storeHalfword alike.memory address value)

/-! ### Instructions that compute in registers -/

theorem shifted (alike : Alike memories one other first second) (operand : ShiftedRegister) :
    first.shifted operand = second.shifted operand := by
  cases amount : operand.amount with
  | immediate places => simp only [Machine.shifted, amount, alike.operand, alike.status]
  | register rs reserved => simp only [Machine.shifted, amount, alike.operand, alike.read, alike.status]

theorem operand2 (alike : Alike memories one other first second) (operand : Operand2) :
    first.operand2 operand = second.operand2 operand := by
  cases operand with
  | immediate base rotate => simp only [Machine.operand2, alike.status]
  | register operand => exact alike.shifted operand

theorem dataProcessing (alike : Alike memories one other first second) (fields : DataProcessing) :
    Agree (AlikeWith memories one other) (first.dataProcessing fields) (second.dataProcessing fields) := by
  refine .bind_of_eq rfl ?_
  intro _
  refine .bind_of_eq (alike.operand2 fields.operand) ?_
  intro shifted
  rw [alike.operand, alike.status]
  generalize fields.op.compute _ _ _ = result
  have flagged : Alike memories one other
      (if fields.setFlags then { first with status := result.setFlags second.status shifted.carry } else first)
      (if fields.setFlags then { second with status := result.setFlags second.status shifted.carry } else second) := by
    cases fields.setFlags with
    | false => exact alike
    | true => exact alike.withStatus _
  cases test : fields.op.isTest with
  | false => exact .pure (flagged.writeResult fields.rd result.word)
  | true => exact .pure ⟨flagged, rfl⟩

theorem flagRegister (alike : Alike memories one other first second) (rm : Reg) :
    first.flagRegister rm = second.flagRegister rm := by
  simp only [Machine.flagRegister, alike.read]

theorem psrTransfer (alike : Alike memories one other first second) (op : PsrOp) :
    Agree (Alike memories one other) (first.psrTransfer op) (second.psrTransfer op) := by
  cases op with
  | read rd =>
      simp only [Machine.psrTransfer, alike.status]
      exact .require_bind (.pure (alike.write rd _))
  | write rm =>
      simp only [Machine.psrTransfer, alike.status]
      exact .bind_of_eq (alike.flagRegister rm) fun value => .pure (alike.withStatus _)
  | writeFlags source =>
      simp only [Machine.psrTransfer, alike.status]
      cases source with
      | immediate field => exact .answers (alike.withStatus _)
      | register rm => exact .bind_of_eq (alike.flagRegister rm) fun value => .pure (alike.withStatus _)
  | undefined => exact .errors _

theorem multiply (alike : Alike memories one other first second) (fields : Multiply) :
    Agree (Alike memories one other) (first.multiply fields) (second.multiply fields) := by
  simp only [Machine.multiply, alike.read, alike.status]
  refine .require_bind ?_
  refine .require_bind ?_
  refine .require_bind ?_
  exact .pure ((alike.write fields.rd _).withStatus _)

theorem multiplyLong (alike : Alike memories one other first second) (fields : MultiplyLong) :
    Agree (Alike memories one other) (first.multiplyLong fields) (second.multiplyLong fields) := by
  simp only [Machine.multiplyLong, alike.read, alike.status]
  refine .require_bind ?_
  refine .require_bind ?_
  refine .require_bind ?_
  exact .pure (((alike.write fields.rdHigh _).write fields.rdLow _).withStatus _)

theorem countLeadingZeros (alike : Alike memories one other first second) (rd rm : Reg) :
    Agree (Alike memories one other) (first.countLeadingZeros rd rm) (second.countLeadingZeros rd rm) := by
  simp only [Machine.countLeadingZeros, alike.read]
  exact .require_bind (.pure (alike.write rd _))

theorem branch (alike : Alike memories one other first second) (link : Bool) (offset : Word) :
    Agree (AlikeWith memories one other) (first.branch link offset) (second.branch link offset) := by
  simp only [Machine.branch, alike.registers]
  refine .require_bind (.pure ⟨?_, rfl⟩)
  cases link with
  | false => exact alike.write Reg.pc _
  | true => exact (alike.write Reg.lr _).write Reg.pc _

/-! ### Instructions that move data between registers and memory -/

theorem swap (words : WordsAgree memories) (alike : Alike memories one other first second) {fields : Swap}
    (parts : fields.quantity = .byte → PartsAgree memories) :
    Agree (Alike memories one other) (first.swap fields) (second.swap fields) := by
  simp only [Machine.swap, alike.read]
  refine .require_bind ?_
  cases quantity : fields.quantity with
  | byte =>
      refine .bind_of_eq (alike.loadByte (parts quantity) _) ?_
      intro loaded
      exact (alike.storeByte (parts quantity) _ _).bind fun before after stored => .pure (stored.write fields.rd _)
  | word =>
      refine .bind_of_eq (alike.loadWord words _) ?_
      intro loaded
      exact (alike.storeWord words _ _).bind fun before after stored => .pure (stored.write fields.rd _)

theorem transferAddress (alike : Alike memories one other first second) (mode : Addressing) (rn : Reg) (amount : Word) :
    Agree (AlikeWith memories one other) (first.transferAddress mode rn amount)
      (second.transferAddress mode rn amount) := by
  simp only [Machine.transferAddress, alike.read]
  cases mode.indexing with
  | pre =>
      cases mode.writeBack with
      | false => exact .answers ⟨alike, rfl⟩
      | true => exact .require_bind (.pure ⟨alike.write rn _, rfl⟩)
  | post =>
      refine .require_bind ?_
      exact .require_bind (.pure ⟨alike.write rn _, rfl⟩)

theorem transferOffset (alike : Alike memories one other first second) (offset : TransferOffset) :
    first.transferOffset offset = second.transferOffset offset := by
  cases offset with
  | immediate offset => rfl
  | register operand => simp only [Machine.transferOffset, alike.shifted]

theorem singleTransfer (words : WordsAgree memories) (alike : Alike memories one other first second)
    {fields : SingleTransfer} (parts : fields.quantity = .byte → PartsAgree memories)
    (shared : fields.transfer = .store → fields.rd = Reg.pc → one = other) :
    Agree (AlikeWith memories one other) (first.singleTransfer fields) (second.singleTransfer fields) := by
  refine .bind_of_eq (alike.transferOffset fields.offset) ?_
  intro amount
  refine (alike.transferAddress fields.mode fields.rn amount).bind ?_
  rintro ⟨first, address⟩ ⟨second, _⟩ ⟨alike, rfl⟩
  cases transfer : fields.transfer <;> cases quantity : fields.quantity
  case load.byte =>
    exact .bind_of_eq (alike.loadByte (parts quantity) address) fun value => .pure (alike.writeResult fields.rd _)
  case load.word =>
    exact .bind_of_eq (alike.loadWord words address) fun value => .pure (alike.writeResult fields.rd value)
  case store.byte =>
    simp only [alike.storeOperand (shared transfer)]
    exact (alike.storeByte (parts quantity) address _).bind fun before after stored => .pure ⟨stored, rfl⟩
  case store.word =>
    simp only [alike.storeOperand (shared transfer)]
    exact (alike.storeWord words address _).bind fun before after stored => .pure ⟨stored, rfl⟩

theorem halfwordOffset (alike : Alike memories one other first second) (offset : HalfwordOffset) :
    first.halfwordOffset offset = second.halfwordOffset offset := by
  cases offset with
  | immediate offset => rfl
  | register rm => simp only [Machine.halfwordOffset, alike.read]

theorem halfwordTransfer (alike : Alike memories one other first second) {fields : HalfwordTransfer}
    (parts : (Instruction.halfwordTransfer fields).movesPart = true → PartsAgree memories)
    (shared : fields.transfer = .store → fields.rd = Reg.pc → one = other) :
    Agree (AlikeWith memories one other) (first.halfwordTransfer fields) (second.halfwordTransfer fields) := by
  refine .require_bind ?_
  refine .bind_of_eq (alike.halfwordOffset fields.offset) ?_
  intro amount
  refine (alike.transferAddress fields.mode fields.rn amount).bind ?_
  rintro ⟨first, address⟩ ⟨second, _⟩ ⟨alike, rfl⟩
  cases transfer : fields.transfer <;> cases kind : fields.kind
  case load.unsignedHalfword | load.signedHalfword =>
    have parts := parts (by simp [Instruction.movesPart, transfer, kind])
    exact .bind_of_eq (alike.loadHalfword parts address) fun value => .pure (alike.writeResult fields.rd _)
  case load.signedByte =>
    have parts := parts (by simp [Instruction.movesPart, transfer, kind])
    exact .bind_of_eq (alike.loadByte parts address) fun value => .pure (alike.writeResult fields.rd _)
  case store.unsignedHalfword =>
    have parts := parts (by simp [Instruction.movesPart, kind])
    simp only [alike.storeOperand (shared transfer)]
    exact (alike.storeHalfword parts address _).bind fun before after stored => .pure ⟨stored, rfl⟩
  all_goals exact .errors _

theorem loadBlock (words : WordsAgree memories) (alike : Alike memories one other first second) (mode : Addressing)
    (address : Word) (regs : List Reg) :
    Agree (AlikeWith memories one other) (first.loadBlock mode address regs) (second.loadBlock mode address regs) := by
  induction regs generalizing first second address with
  | nil => exact .answers ⟨alike, rfl⟩
  | cons reg rest ih =>
      refine .bind_of_eq (alike.loadWord words _) ?_
      intro value
      exact ih (alike.write reg value) _

theorem storeBlock (words : WordsAgree memories) (alike : Alike memories one other first second) (mode : Addressing)
    (address : Word) (regs : List Reg) :
    Agree (AlikeWith memories one other) (first.storeBlock mode address regs) (second.storeBlock mode address regs) := by
  induction regs generalizing first second address with
  | nil => exact .answers ⟨alike, rfl⟩
  | cons reg rest ih =>
      simp only [Machine.storeBlock, alike.read]
      refine .require_bind ?_
      exact (alike.storeWord words _ _).bind fun before after stored => ih stored _

theorem blockTransfer (words : WordsAgree memories) (alike : Alike memories one other first second)
    (fields : BlockTransfer) :
    Agree (AlikeWith memories one other) (first.blockTransfer fields) (second.blockTransfer fields) := by
  simp only [Machine.blockTransfer, alike.read]
  refine .require_bind ?_
  refine .require_bind ?_
  cases fields.transfer with
  | load =>
      refine (alike.loadBlock words fields.mode _ fields.order).bind ?_
      rintro ⟨first, last⟩ ⟨second, _⟩ ⟨alike, rfl⟩
      refine .pure ⟨?_, rfl⟩
      show Alike memories one other (if _ then _ else _) (if _ then _ else _)
      split
      · exact alike.write fields.rn last
      · exact alike
  | store =>
      refine (alike.storeBlock words fields.mode _ fields.order).bind ?_
      rintro ⟨first, last⟩ ⟨second, _⟩ ⟨alike, rfl⟩
      cases fields.mode.writeBack with
      | false => exact .pure ⟨alike, rfl⟩
      | true => exact .require_bind (.pure ⟨alike.write fields.rn last, rfl⟩)

/-! ### Floating point -/

theorem loadSlots (words : WordsAgree memories) (alike : Alike memories one other first second) (address : Word)
    (slot count : Nat) :
    Agree (Alike memories one other) (first.loadSlots address slot count) (second.loadSlots address slot count) := by
  induction count generalizing first second address slot with
  | zero => exact .answers alike
  | succ count ih =>
      simp only [Machine.loadSlots, alike.vfp]
      refine .bind_of_eq (alike.loadWord words address) ?_
      intro value
      refine .bind_of_eq rfl ?_
      intro target
      exact ih (alike.withVfp _) _ _

theorem storeSlots (words : WordsAgree memories) (alike : Alike memories one other first second) (address : Word)
    (slot count : Nat) :
    Agree (Alike memories one other) (first.storeSlots address slot count) (second.storeSlots address slot count) := by
  induction count generalizing first second address slot with
  | zero => exact .answers alike
  | succ count ih =>
      simp only [Machine.storeSlots, alike.vfp]
      refine .bind_of_eq rfl ?_
      intro source
      exact (alike.storeWord words address _).bind fun before after stored => ih stored _ _

theorem transferSlots (words : WordsAgree memories) (alike : Alike memories one other first second) (transfer : Transfer)
    (address : Word) (slot : Vfp.Slot) (count : Nat) :
    Agree (Alike memories one other) (first.transferSlots transfer address slot count)
      (second.transferSlots transfer address slot count) := by
  cases transfer with
  | load => exact alike.loadSlots words address slot.toNat count
  | store => exact alike.storeSlots words address slot.toNat count

theorem writeBackBase (alike : Alike memories one other first second) (rn : Reg) (value : Word) :
    Agree (Alike memories one other) (first.writeBackBase rn value) (second.writeBackBase rn value) :=
  .require_bind (.pure (alike.write rn value))

theorem vfpLoadStore (words : WordsAgree memories) (alike : Alike memories one other first second)
    (fields : Vfp.LoadStore) :
    Agree (Alike memories one other) (first.vfpLoadStore fields) (second.vfpLoadStore fields) := by
  simp only [Machine.vfpLoadStore, alike.operand]
  cases fields.mode with
  | unindexed | positiveOffset | negativeOffset => exact alike.transferSlots words _ _ _ _
  | increment | decrement =>
      exact (alike.transferSlots words _ _ _ _).bind fun before after moved => moved.writeBackBase fields.rn _
  | undefined mode => exact .errors _

theorem moveCompareFlags (alike : Alike memories one other first second) (source : Vfp.SystemRegister) :
    Agree (Alike memories one other) (first.moveCompareFlags source) (second.moveCompareFlags source) := by
  have flags : first.vfp.compareFlags = second.vfp.compareFlags := by rw [alike.vfp]
  simp only [Machine.moveCompareFlags, alike.status, flags]
  exact .require_bind (.pure (alike.withStatus _))

theorem vfpRegisterTransfer (alike : Alike memories one other first second) (fields : Vfp.RegisterTransfer) :
    Agree (Alike memories one other) (first.vfpRegisterTransfer fields) (second.vfpRegisterTransfer fields) := by
  simp only [Machine.vfpRegisterTransfer, alike.read, alike.vfp]
  split
  · exact alike.moveCompareFlags _
  · refine .require_bind ?_
    cases fields.op with
    | fmsr | fmdlr | fmdhr => exact .pure (alike.withVfp _)
    | fmrs | fmrdl | fmrdh => exact .pure (alike.write fields.rd _)
    | fmxr => exact .bind_of_eq rfl fun vfp => .pure (alike.withVfp vfp)
    | fmrx => exact .bind_of_eq rfl fun value => .pure (alike.write fields.rd value)
    | undefined opcode => exact .errors _

theorem executeVfp (words : WordsAgree memories) (alike : Alike memories one other first second)
    (instruction : Vfp.Instruction) :
    Agree (Alike memories one other) (first.executeVfp instruction) (second.executeVfp instruction) := by
  cases instruction with
  | dataProcessing fields =>
      simp only [Machine.executeVfp, alike.vfp]
      exact .bind_of_eq rfl fun vfp => .pure (alike.withVfp vfp)
  | loadStore fields => exact alike.vfpLoadStore words fields
  | registerTransfer fields => exact alike.vfpRegisterTransfer fields

/-! ### Any instruction -/

theorem continuing {before after : Except Refusal Machine} (agree : Agree (Alike memories one other) before after) :
    Agree (AlikeWith memories one other) (Machine.continuing before) (Machine.continuing after) :=
  agree.map fun _ _ alike => ⟨alike, rfl⟩

theorem perform (words : WordsAgree memories) (alike : Alike memories one other first second) (word : Word)
    {instruction : Instruction} (parts : instruction.movesPart = true → PartsAgree memories)
    (shared : instruction.storesProgramCounter = true → one = other) :
    Agree (AlikeWith memories one other) (first.perform word instruction) (second.perform word instruction) := by
  cases instruction with
  | dataProcessing fields => exact alike.dataProcessing fields
  | psrTransfer saved op => exact continuing (alike.psrTransfer op)
  | multiply fields => exact continuing (alike.multiply fields)
  | multiplyLong fields => exact continuing (alike.multiplyLong fields)
  | countLeadingZeros rd rm => exact continuing (alike.countLeadingZeros rd rm)
  | swap fields =>
      have parts : fields.quantity = .byte → PartsAgree memories := fun byte => parts (by simp [Instruction.movesPart, byte])
      exact continuing (alike.swap words parts)
  | halfwordTransfer fields =>
      refine alike.halfwordTransfer parts ?_
      intro store counter
      exact shared (by simp [Instruction.storesProgramCounter, store, counter])
  | singleTransfer fields =>
      refine alike.singleTransfer words ?_ ?_
      · intro byte
        exact parts (by simp [Instruction.movesPart, byte])
      · intro store counter
        exact shared (by simp [Instruction.storesProgramCounter, store, counter])
  | blockTransfer fields => exact alike.blockTransfer words fields
  | branch link offset => exact alike.branch link offset
  | undefined => exact .errors _
  | coprocessor => exact .errors _
  | vfp instruction => exact continuing (alike.executeVfp words instruction)

/-! ### A step -/

theorem fetch (words : WordsAgree memories) (alike : Alike memories one other first second) :
    first.fetch = second.fetch := by
  simp only [Machine.fetch, alike.registers, alike.loadWord words]

theorem step (words : WordsAgree memories) (alike : Alike memories one other first second)
    (parts : ∀ instruction ∈ first.performed?, instruction.movesPart = true → PartsAgree memories)
    (shared : ∀ instruction ∈ first.performed?, instruction.storesProgramCounter = true → one = other) :
    Agree (AlikeWith memories one other) first.step second.step := by
  have sameFetch := alike.fetch words
  cases fetched : first.fetch with
  | error refusal =>
      rw [step_of_error fetched, step_of_error (sameFetch ▸ fetched)]
      exact .errors refusal
  | ok word? =>
      cases word? with
      | none =>
          rw [step_of_none fetched, step_of_none (sameFetch ▸ fetched)]
          exact .answers ⟨alike, rfl⟩
      | some word =>
          cases holds : first.status.holds (Condition.ofWord word) with
          | false =>
              rw [step_of_not_holds fetched holds, step_of_not_holds (sameFetch ▸ fetched) (alike.status ▸ holds)]
              exact .answers ⟨alike.advance .next, rfl⟩
          | true =>
              have performed := performed?_of_holds fetched holds
              have carried := alike.perform words word (parts _ performed) (shared _ performed)
              rw [step_of_holds fetched holds, step_of_holds (sameFetch ▸ fetched) (alike.status ▸ holds)]
              refine carried.map ?_
              rintro ⟨first, flow⟩ ⟨second, _⟩ ⟨alike, rfl⟩
              exact ⟨alike.advance flow, rfl⟩

end Alike

end Machine

namespace Emulator

open Memory (Image WordsAgree PartsAgree)

variable {memories : Image → Image → Prop} {one other : Processor} {kind : Instruction → Bool} {first second : Emulator}
  {count : Nat}

/-- Emulators that start alike stay alike for as long as they meet nothing on which they could differ. -/
theorem stepTimes_alike (words : WordsAgree memories)
    (parts : ∀ instruction, kind instruction = false → instruction.movesPart = true → PartsAgree memories)
    (shared : ∀ instruction, kind instruction = false → instruction.storesProgramCounter = true → one = other)
    (start : Machine.Alike memories one other first.machine second.machine) (avoided : avoids kind count first = true) :
    Agree (Related (Machine.Alike memories one other)) (first.stepTimes count) (second.stepTimes count) := by
  refine stepTimes_agree ?_ start avoided
  intro first second alike avoids
  refine alike.step words ?_ ?_
  · exact fun instruction performed => parts instruction (avoids instruction performed)
  · exact fun instruction performed => shared instruction (avoids instruction performed)

end Emulator

end Arm32
