import Arm32.Proofs.Arithmetic.Operation
import Arm32.Proofs.Emulation.Budget
import Arm32.Proofs.Emulation.Sequence
import Arm32.Proofs.Encoding.Execution
import Arm32.Proofs.Frame.Execution

/-! Where a step leads. The program counter moves on to the next instruction, unless it is what an instruction computes,
loads or branches to; and an instruction reports a branch exactly if that is so. -/

namespace Arm32

/-- The program counter receives a result, a loaded value or the target of a branch. -/
def Instruction.setsProgramCounter : Instruction → Bool
  | dataProcessing fields => !fields.op.isTest && fields.rd == Reg.pc
  | halfwordTransfer fields => fields.transfer == .load && fields.rd == Reg.pc
  | singleTransfer fields => fields.transfer == .load && fields.rd == Reg.pc
  | blockTransfer fields => fields.transfer == .load && fields.lists Reg.pc
  | branch _ _ => true
  | _ => false

namespace Machine

variable {machine : Machine}

def loadedSingle (machine : Machine) (quantity : Quantity) (address : Word) : Except Refusal Word :=
  match quantity with
  | .byte => (machine.loadByte address).map (·.setWidth 32)
  | .word => machine.loadWord address

def loadedHalfword (machine : Machine) (kind : HalfwordKind) (address : Word) : Except Refusal Word :=
  match kind with
  | .unsignedHalfword => (machine.loadHalfword address).map (·.setWidth 32)
  | .signedHalfword => (machine.loadHalfword address).map (·.signExtend 32)
  | .signedByte => (machine.loadByte address).map (·.signExtend 32)
  | .swap => .error .swapAmongHalfwords

/-- What an instruction computes, loads or branches to, in the state that it starts from. In a list of registers the
program counter comes last, so it has the highest word. -/
def target? (machine : Machine) : Instruction → Option Word
  | .dataProcessing fields =>
    (machine.operand2 fields.operand).toOption.map fun second => (fields.result machine second).word
  | .halfwordTransfer fields =>
    (machine.halfwordOffset fields.offset).toOption.bind fun amount =>
      (machine.loadedHalfword fields.kind (fields.mode.address machine fields.rn amount)).toOption
  | .singleTransfer fields =>
    (machine.transferOffset fields.offset).toOption.bind fun amount =>
      (machine.loadedSingle fields.quantity (fields.mode.address machine fields.rn amount)).toOption
  | .blockTransfer fields =>
    (machine.loadWord (Memory.Image.wordAddress (fields.lowest (machine.read fields.rn))
      (fields.registers.length - 1))).toOption
  | .branch _ offset => some (machine.registers.programCounter + offset + prefetch)
  | _ => none

/-- The report of an instruction fits what it has done to the program counter. -/
def Reports (machine : Machine) (instruction : Instruction) (done : Machine × Flow) : Prop :=
  match done.2 with
  | .next => instruction.setsProgramCounter = false
  | .branched =>
    instruction.setsProgramCounter = true ∧ machine.target? instruction = some done.1.registers.programCounter

theorem read_write_self (machine : Machine) (reg : Reg) (value : Word) : (machine.write reg value).read reg = value :=
  (Registers.read_write machine.registers reg reg value).trans (if_pos rfl)

/-- A result that goes to a register, which may be the program counter. -/
theorem writeResult_reports {instruction : Instruction} {after : Machine} {rd : Reg} {value : Word}
    (sets : instruction.setsProgramCounter = (rd == Reg.pc)) (target : machine.target? instruction = some value) :
    Reports machine instruction (after.writeResult rd value) := by
  by_cases counter : rd = Reg.pc
  · subst counter
    refine ⟨sets, ?_⟩
    rw [target]
    exact congrArg some (after.read_write_self Reg.pc value).symm
  · have apart : (rd == Reg.pc) = false := beq_eq_false_iff_ne.mpr counter
    simp only [Reports, writeResult, if_neg counter, sets, apart]

theorem dataProcessing_reports (machine : Machine) (fields : DataProcessing) :
    Ensures (Reports machine (.dataProcessing fields)) (machine.dataProcessing fields) := by
  intro done executed
  obtain ⟨-, second, read, rfl⟩ := dataProcessing_eq_ok_iff.mp executed
  unfold DataProcessing.done
  cases test : fields.op.isTest with
  | true =>
      show (!fields.op.isTest && _) = false
      rw [test]
      rfl
  | false =>
      refine writeResult_reports ?_ ?_
      · simp [Instruction.setsProgramCounter, test]
      · rw [target?, read]
        rfl

theorem branch_reports (machine : Machine) (link : Bool) (offset : Word) :
    Ensures (Reports machine (.branch link offset)) (machine.branch link offset) := by
  refine .bind_any fun _ => .pure ⟨rfl, ?_⟩
  exact congrArg some (read_write_self _ Reg.pc _).symm

/-- The base is written back before the access, but memory is as it was. -/
theorem transferAddress_memory (machine : Machine) (mode : Addressing) (rn : Reg) (amount : Word) :
    Ensures (fun done => done.1.memory = machine.memory) (machine.transferAddress mode rn amount) := by
  unfold transferAddress
  cases mode.indexing with
  | pre =>
      cases mode.writeBack with
      | false => exact .answer rfl
      | true => exact .bind_any fun _ => .pure rfl
  | post => exact .bind_any fun _ => .bind_any fun _ => .pure rfl

theorem transferAddress_loads (machine : Machine) (mode : Addressing) (rn : Reg) (amount : Word) :
    Ensures (fun done => done.1.memory = machine.memory ∧ done.2 = mode.address machine rn amount)
      (machine.transferAddress mode rn amount) := by
  intro done same
  have found := @transferAddress_within ⟨fun _ => True, fun _ => True, 0, True, 0, True⟩ machine mode rn amount
    fun _ => trivial
  exact ⟨machine.transferAddress_memory mode rn amount done same, (found done same).2⟩

/-- A value that is loaded, if it can be, and then goes to a register. -/
theorem loaded_reports {α : Type} {instruction : Instruction} {after : Machine} {rd : Reg} {load : Except Refusal α}
    {widen : α → Word} (sets : instruction.setsProgramCounter = (rd == Reg.pc))
    (target : machine.target? instruction = (load.map widen).toOption) :
    Ensures (Reports machine instruction) (load >>= fun value => pure (after.writeResult rd (widen value))) := by
  cases load with
  | error refusal => exact .error refusal
  | ok value => exact .pure (writeResult_reports sets target)

theorem singleTransfer_reports (machine : Machine) (fields : SingleTransfer) :
    Ensures (Reports machine (.singleTransfer fields)) (machine.singleTransfer fields) := by
  refine .bind_found ?_
  intro amount offset
  refine (machine.transferAddress_loads fields.mode fields.rn amount).bind ?_
  rintro ⟨after, address⟩ ⟨memory, rfl⟩
  have target : machine.target? (.singleTransfer fields) =
      (machine.loadedSingle fields.quantity (fields.mode.address machine fields.rn amount)).toOption := by
    rw [target?, offset]
    rfl
  cases transfer : fields.transfer with
  | load =>
      have sets : (Instruction.singleTransfer fields).setsProgramCounter = (fields.rd == Reg.pc) := by
        simp [Instruction.setsProgramCounter, transfer]
      cases quantity : fields.quantity with
      | byte =>
          rw [quantity, loadedSingle, loadByte, ← memory] at target
          exact loaded_reports sets target
      | word =>
          rw [quantity, loadedSingle, loadWord, ← memory] at target
          exact loaded_reports sets (target.trans (congrArg Except.toOption (congrFun Except.map_id _).symm))
  | store =>
      have sets : (Instruction.singleTransfer fields).setsProgramCounter = false := by
        simp [Instruction.setsProgramCounter, transfer]
      cases fields.quantity with
      | byte => exact .bind_any fun stored => .pure sets
      | word => exact .bind_any fun stored => .pure sets

theorem halfwordTransfer_reports (machine : Machine) (fields : HalfwordTransfer) :
    Ensures (Reports machine (.halfwordTransfer fields)) (machine.halfwordTransfer fields) := by
  refine .bind_any fun _ => .bind_found ?_
  intro amount offset
  refine (machine.transferAddress_loads fields.mode fields.rn amount).bind ?_
  rintro ⟨after, address⟩ ⟨memory, rfl⟩
  have target : machine.target? (.halfwordTransfer fields) =
      (machine.loadedHalfword fields.kind (fields.mode.address machine fields.rn amount)).toOption := by
    rw [target?, offset]
    rfl
  cases transfer : fields.transfer with
  | load =>
      have sets : (Instruction.halfwordTransfer fields).setsProgramCounter = (fields.rd == Reg.pc) := by
        simp [Instruction.setsProgramCounter, transfer]
      cases kind : fields.kind with
      | unsignedHalfword =>
          rw [kind, loadedHalfword, loadHalfword, ← memory] at target
          exact loaded_reports sets target
      | signedHalfword =>
          rw [kind, loadedHalfword, loadHalfword, ← memory] at target
          exact loaded_reports sets target
      | signedByte =>
          rw [kind, loadedHalfword, loadByte, ← memory] at target
          exact loaded_reports sets target
      | swap => exact .error _
  | store =>
      have sets : (Instruction.halfwordTransfer fields).setsProgramCounter = false := by
        simp [Instruction.setsProgramCounter, transfer]
      cases fields.kind with
      | unsignedHalfword => exact .bind_any fun stored => .pure sets
      | signedHalfword | signedByte | swap => exact .error _

/-! ### Lists of registers -/

/-- Each register of a list receives the word at its address. Loading leaves memory and the other registers alone. -/
theorem loadBlock_loads (machine : Machine) (mode : Addressing) (address : Word) {regs : List Reg}
    (distinct : regs.Nodup) :
    Ensures (fun done => (∀ reg, reg ∉ regs → done.1.read reg = machine.read reg) ∧
        ∀ index reg, regs[index]? = some reg →
          machine.loadWord (blockAddress mode address index) = .ok (done.1.read reg))
      (machine.loadBlock mode address regs) := by
  induction regs generalizing machine address with
  | nil =>
      refine .answer ⟨fun _ _ => rfl, ?_⟩
      intro index reg listed
      cases listed
  | cons first rest ih =>
      obtain ⟨apart, distinct⟩ := List.nodup_cons.mp distinct
      refine .bind_found ?_
      intro value loaded done executed
      obtain ⟨others, words⟩ := ih (machine.write first value) (blockStep mode address).2 distinct done executed
      constructor
      · intro reg outside
        rw [List.mem_cons, not_or] at outside
        obtain ⟨differs, outside⟩ := outside
        rw [others reg outside]
        exact (Registers.read_write machine.registers first reg value).trans (if_neg differs)
      · intro index reg listed
        cases index with
        | zero =>
            cases listed
            rw [blockAddress_zero, loaded, others first apart]
            exact congrArg Except.ok (read_write_self machine first value).symm
        | succ index =>
            rw [blockAddress_succ]
            exact words index reg listed

end Machine

namespace BlockTransfer

variable (fields : BlockTransfer)

theorem nodup_registers : fields.registers.Nodup := by
  have distinct : ((List.range 16).map (BitVec.ofNat 4)).Nodup := by decide
  exact distinct.filter _

theorem nodup_order : fields.order.Nodup := by
  unfold order
  split
  · exact fields.nodup_registers
  · exact (List.reverse_perm _).nodup_iff.mpr fields.nodup_registers

/-- No register has a greater number than the program counter. -/
theorem registers_eq_append (listed : fields.lists Reg.pc = true) : ∃ lower, fields.registers = lower ++ [Reg.pc] := by
  have last : (List.range 16).map (BitVec.ofNat 4) = (List.range 15).map (BitVec.ofNat 4) ++ [Reg.pc] := by decide
  refine ⟨((List.range 15).map (BitVec.ofNat 4)).filter fields.lists, ?_⟩
  rw [registers, last, List.filter_append, List.filter_cons_of_pos listed, List.filter_nil]

/-- In either order the program counter goes with the highest of the words. -/
theorem exists_order_eq_pc (listed : fields.lists Reg.pc = true) :
    ∃ index, index < fields.registers.length ∧ fields.order[index]? = some Reg.pc ∧
      fields.place index = fields.registers.length - 1 := by
  obtain ⟨lower, registers⟩ := fields.registers_eq_append listed
  have length : fields.registers.length = lower.length + 1 := by
    rw [registers, List.length_append, List.length_singleton]
  cases direction : fields.mode.direction with
  | up =>
      refine ⟨lower.length, by omega, ?_, ?_⟩
      · simp [order, direction, registers]
      · simp [place, direction, length]
  | down =>
      refine ⟨0, by omega, ?_, ?_⟩
      · simp [order, direction, registers]
      · simp [place, direction]

end BlockTransfer

namespace Machine

theorem blockTransfer_reports (machine : Machine) (fields : BlockTransfer) :
    Ensures (Reports machine (.blockTransfer fields)) (machine.blockTransfer fields) := by
  refine .bind_any fun _ => .require_bind fun apart => ?_
  cases transfer : fields.transfer with
  | load =>
      refine (machine.loadBlock_loads fields.mode (machine.read fields.rn) fields.nodup_order).bind ?_
      rintro ⟨after, last⟩ ⟨-, words⟩
      have sets : (Instruction.blockTransfer fields).setsProgramCounter = fields.lists Reg.pc := by
        simp [Instruction.setsProgramCounter, transfer]
      refine .pure ?_
      cases listed : fields.lists Reg.pc with
      | false => exact sets.trans listed
      | true =>
          refine ⟨sets.trans listed, ?_⟩
          obtain ⟨index, within, ordered, highest⟩ := fields.exists_order_eq_pc listed
          have loaded := words index Reg.pc ordered
          rw [fields.blockAddress_eq_wordAddress _ within, highest] at loaded
          rw [target?, loaded]
          -- The base that is written back is another register.
          have other : Reg.pc ≠ fields.rn := fun same => by simp [same] at apart
          show some (after.read Reg.pc) = some (Machine.read (if _ then _ else _) Reg.pc)
          split
          · exact congrArg some ((Registers.read_write after.registers fields.rn Reg.pc last).trans (if_neg other)).symm
          · rfl
  | store =>
      have sets : (Instruction.blockTransfer fields).setsProgramCounter = false := by
        simp [Instruction.setsProgramCounter, transfer]
      refine .bind_any fun stored => ?_
      cases back : fields.mode.writeBack with
      | false => exact .pure sets
      | true => exact .bind_any fun _ => .pure sets

/-! ### Any instruction -/

theorem continuing_reports {instruction : Instruction} {result : Except Refusal Machine}
    (sets : instruction.setsProgramCounter = false) : Ensures (Reports machine instruction) (continuing result) := by
  cases result with
  | error refusal => exact .error refusal
  | ok after => exact .answer sets

theorem perform_reports (machine : Machine) (word : Word) (instruction : Instruction) :
    Ensures (Reports machine instruction) (machine.perform word instruction) := by
  cases instruction with
  | dataProcessing fields => exact machine.dataProcessing_reports fields
  | halfwordTransfer fields => exact machine.halfwordTransfer_reports fields
  | singleTransfer fields => exact machine.singleTransfer_reports fields
  | blockTransfer fields => exact machine.blockTransfer_reports fields
  | branch link offset => exact machine.branch_reports link offset
  | undefined => exact .error _
  | coprocessor => exact .error _
  | psrTransfer _ _ | multiply _ | multiplyLong _ | countLeadingZeros _ _ | swap _ | vfp _ =>
      exact continuing_reports rfl

end Machine

/-- The rules that an instruction may not break keep the program counter from all that does not set it. -/
theorem Instruction.not_changes_programCounter {instruction : Instruction}
    (sets : instruction.setsProgramCounter = false) (permitted : instruction.isForbidden = false)
    (moves : ∀ fields, instruction = .vfp (.registerTransfer fields) → fields.isFlagMove = false) :
    ¬ instruction.Changes Reg.pc := by
  rintro (destination | base | linked)
  · cases instruction with
    | dataProcessing _ | halfwordTransfer _ | singleTransfer _ | blockTransfer _ =>
        exact Bool.noConfusion (destination.symm.trans sets)
    | branch _ _ => cases sets
    | psrTransfer saved op =>
        cases op with
        | read rd => exact Bool.noConfusion (destination.symm.trans permitted)
        | _ => cases destination
    | multiply fields =>
        have same : fields.rd = Reg.pc := eq_of_beq destination
        simp [isForbidden, Multiply.isForbidden, same] at permitted
    | multiplyLong fields =>
        have same : fields.rdHigh = Reg.pc ∨ fields.rdLow = Reg.pc := by simpa [hasDestination] using destination
        rcases same with same | same <;> simp [isForbidden, MultiplyLong.isForbidden, same] at permitted
    | countLeadingZeros rd rm =>
        have same : rd = Reg.pc := eq_of_beq destination
        simp [isForbidden, same] at permitted
    | swap fields =>
        have same : fields.rd = Reg.pc := eq_of_beq destination
        simp [isForbidden, Swap.isForbidden, same] at permitted
    | vfp inner =>
        cases inner with
        | registerTransfer fields =>
            have same : fields.rd = Reg.pc := by
              simp only [hasDestination, Bool.and_eq_true, beq_iff_eq] at destination
              exact destination.2
            simp [isForbidden, Vfp.Instruction.isForbidden, Vfp.RegisterTransfer.isForbidden, moves fields rfl, same]
              at permitted
        | _ => cases destination
    | undefined | coprocessor => cases destination
  · cases instruction with
    | halfwordTransfer fields =>
        have base : fields.mode.updatesBase = true ∧ fields.rn = Reg.pc := by simpa [writesBack] using base
        simp [isForbidden, HalfwordTransfer.isForbidden, Addressing.isForbidden, base] at permitted
    | singleTransfer fields =>
        have base : fields.mode.updatesBase = true ∧ fields.rn = Reg.pc := by simpa [writesBack] using base
        simp [isForbidden, SingleTransfer.isForbidden, Addressing.isForbidden, base] at permitted
    | blockTransfer fields =>
        have base : fields.mode.writeBack = true ∧ fields.rn = Reg.pc := by simpa [writesBack] using base
        simp [isForbidden, BlockTransfer.isForbidden, base] at permitted
    | vfp inner =>
        cases inner with
        | loadStore fields =>
            have base : fields.mode.updatesBase = true ∧ fields.rn = Reg.pc := by simpa [writesBack] using base
            cases mode : fields.mode <;>
              simp [mode, Vfp.AddressMode.updatesBase, isForbidden, Vfp.Instruction.isForbidden,
                Vfp.LoadStore.isForbidden, base.2] at base permitted
        | _ => cases base
    | _ => cases base
  · cases instruction with
    | branch _ _ => cases sets
    | _ => cases linked

namespace Machine

variable {machine after : Machine} {word : Word} {flow : Flow}

/-- The flags move to where the program counter would be named, which is the status register. -/
theorem flagMove_registers {fields : Vfp.RegisterTransfer} (move : fields.isFlagMove = true) :
    Ensures (fun after => after.registers = machine.registers) (machine.vfpRegisterTransfer fields) := by
  have both : fields.op = .fmrx ∧ fields.rd = Reg.pc := by simpa [Vfp.RegisterTransfer.isFlagMove] using move
  rw [vfpRegisterTransfer, if_pos both]
  exact .bind_any fun _ => .pure rfl

theorem programCounter_of_perform {instruction : Instruction} (sets : instruction.setsProgramCounter = false)
    (performed : machine.perform word instruction = .ok (after, flow)) :
    after.registers.programCounter = machine.registers.programCounter := by
  have permitted : instruction.isForbidden = false := by
    rw [← Bool.not_eq_true]
    intro forbidden
    obtain ⟨refusal, refused⟩ := @perform_refused machine word instruction forbidden
    rw [refused] at performed
    cases performed
  by_cases moves : ∃ fields, instruction = .vfp (.registerTransfer fields) ∧ fields.isFlagMove = true
  · obtain ⟨fields, rfl, move⟩ := moves
    have kept : Ensures (fun done => done.1.registers = machine.registers)
        (machine.perform word (.vfp (.registerTransfer fields))) := (flagMove_registers move).map fun _ same => same
    exact congrArg Registers.programCounter (kept _ performed)
  · have kept : ¬ instruction.Changes Reg.pc :=
      Instruction.not_changes_programCounter sets permitted fun fields same =>
        Bool.eq_false_iff.mpr fun move => moves ⟨fields, same, move⟩
    exact (machine.perform_within word instruction _ performed).registers Reg.pc kept

/-- What executing a word reports, and what it does to the program counter. -/
theorem execute_reports (executed : machine.execute word = .ok (after, flow)) :
    flow = .branched ∧ machine.status.holds (Condition.ofWord word) = true ∧
        (Instruction.decode word).setsProgramCounter = true ∧
        machine.target? (Instruction.decode word) = some after.registers.programCounter ∨
      flow = .next ∧
        ¬ (machine.status.holds (Condition.ofWord word) = true ∧ (Instruction.decode word).setsProgramCounter = true) ∧
        after.registers.programCounter = machine.registers.programCounter := by
  cases holds : machine.status.holds (Condition.ofWord word) with
  | false =>
      rw [execute, holds] at executed
      cases executed
      exact .inr ⟨rfl, by simp, rfl⟩
  | true =>
      rw [execute_of_holds holds] at executed
      have reports := machine.perform_reports word (Instruction.decode word) _ executed
      cases flow with
      | branched => exact .inl ⟨rfl, rfl, reports⟩
      | next =>
          have sets : (Instruction.decode word).setsProgramCounter = false := reports
          exact .inr ⟨rfl, by simp [sets], programCounter_of_perform sets executed⟩

theorem exists_execute_of_step {classOf : InstructionClass} (stepped : machine.step = .ok (after, some classOf)) :
    ∃ word middle flow, machine.fetch = .ok (some word) ∧ machine.execute word = .ok (middle, flow) ∧
      after = middle.advance flow := by
  cases fetched : machine.fetch with
  | error refusal =>
      rw [step_of_error fetched] at stepped
      cases stepped
  | ok word? =>
      cases word? with
      | none =>
          rw [step_of_none fetched] at stepped
          cases stepped
      | some word =>
          rw [step_of_some fetched] at stepped
          cases executed : machine.execute word with
          | error refusal =>
              rw [executed] at stepped
              cases stepped
          | ok done =>
              rw [executed] at stepped
              cases stepped
              exact ⟨word, done.1, done.2, rfl, executed, rfl⟩

theorem mem_performed?_iff {instruction : Instruction} (fetched : machine.fetch = .ok (some word)) :
    instruction ∈ machine.performed? ↔
      machine.status.holds (Condition.ofWord word) = true ∧ Instruction.decode word = instruction := by
  cases holds : machine.status.holds (Condition.ofWord word) <;> simp [performed?, fetched, holds]

theorem step_programCounter {classOf : InstructionClass} (stepped : machine.step = .ok (after, some classOf)) :
    (∀ instruction ∈ machine.performed?, instruction.setsProgramCounter = true →
        machine.target? instruction = some after.registers.programCounter) ∧
      ((∀ instruction ∈ machine.performed?, instruction.setsProgramCounter = false) →
        after.registers.programCounter = machine.registers.programCounter + instructionBytes) := by
  obtain ⟨word, middle, flow, fetched, executed, rfl⟩ := exists_execute_of_step stepped
  simp only [mem_performed?_iff fetched]
  obtain ⟨rfl, holds, sets, target⟩ | ⟨rfl, passes, kept⟩ := execute_reports executed
  · constructor
    · rintro _ ⟨-, rfl⟩ -
      exact target
    · intro keeps
      exact Bool.noConfusion (sets.symm.trans (keeps _ ⟨holds, rfl⟩))
  · constructor
    · rintro _ ⟨holds, rfl⟩ sets
      exact absurd ⟨holds, sets⟩ passes
    · intro _
      rw [← kept]
      exact read_write_self middle Reg.pc _

end Machine

namespace Emulator

/-- After a step the program counter is what the instruction that was carried out has set it to, and the next instruction
if none was that sets it. Executing a word reports which of the two it is. -/
theorem step_controlFlow (emulator : Emulator) :
    (∀ after classOf, emulator.step = .ok (after, some classOf) →
        (∀ instruction ∈ emulator.machine.performed?, instruction.setsProgramCounter = true →
          emulator.machine.target? instruction = some after.programCounter) ∧
        ((∀ instruction ∈ emulator.machine.performed?, instruction.setsProgramCounter = false) →
          after.programCounter = emulator.programCounter + instructionBytes)) ∧
      ∀ word machine flow, emulator.machine.execute word = .ok (machine, flow) →
        (flow = .branched →
          emulator.machine.status.holds (Condition.ofWord word) = true ∧
            (Instruction.decode word).setsProgramCounter = true ∧
            emulator.machine.target? (Instruction.decode word) = some machine.registers.programCounter) ∧
        (flow = .next →
          ¬ (emulator.machine.status.holds (Condition.ofWord word) = true ∧
            (Instruction.decode word).setsProgramCounter = true) ∧
          machine.registers.programCounter = emulator.programCounter) := by
  constructor
  · intro after classOf stepped
    obtain ⟨machine, carried, rfl⟩ := step_eq_ok_iff.mp stepped
    exact Machine.step_programCounter carried
  · intro word machine flow executed
    obtain ⟨rfl, reports⟩ | ⟨rfl, reports⟩ := Machine.execute_reports executed
    · exact ⟨fun _ => reports, fun impossible => by cases impossible⟩
    · exact ⟨fun impossible => (by cases impossible), fun _ => reports⟩

/-- A load of the program counter from where the instruction itself stands, and the same for equal operands, which the
flags say they are not. -/
theorem step_controlFlow_load :
    ((ofWord 0xE51FF008).startAt 0x1000).machine.target? (Instruction.decode 0xE51FF008) = some 0xE51FF008 ∧
      (Instruction.decode 0xE51FF008).setsProgramCounter = true ∧
      ((ofWord 0x051FF008).startAt 0x1004).programCounter =
        ((ofWord 0x051FF008).startAt 0x1000).programCounter + instructionBytes := by
  have loads : ((ofWord 0xE51FF008).startAt 0x1000).step =
      .ok ((ofWord 0xE51FF008).startAt 0xE51FF008, some .singleTransfer) := rfl
  have fetched : ((ofWord 0xE51FF008).startAt 0x1000).machine.fetch = .ok (some 0xE51FF008) := rfl
  have executed : ((ofWord 0xE51FF008).startAt 0x1000).machine.execute 0xE51FF008 =
      .ok (((ofWord 0xE51FF008).startAt 0xE51FF008).machine, .branched) := rfl
  have passes : ((ofWord 0x051FF008).startAt 0x1000).step =
      .ok ((ofWord 0x051FF008).startAt 0x1004, some .singleTransfer) := rfl
  have nothing : ((ofWord 0x051FF008).startAt 0x1000).machine.performed? = none := rfl
  obtain ⟨stepped, reports⟩ := step_controlFlow ((ofWord 0xE51FF008).startAt 0x1000)
  have sets := ((reports _ _ _ executed).1 rfl).2.1
  refine ⟨(stepped _ _ loads).1 _ (Machine.performed?_of_holds fetched rfl) sets, sets, ?_⟩
  refine ((step_controlFlow ((ofWord 0x051FF008).startAt 0x1000)).1 _ _ passes).2 ?_
  rw [nothing]
  rintro _ ⟨⟩

end Emulator

end Arm32
