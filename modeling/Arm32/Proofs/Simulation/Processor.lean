import Arm32.Proofs.Encoding.Core
import Arm32.Proofs.Frame.Execution
import Arm32.Proofs.Memory.Words
import Arm32.Proofs.Simulation.Alike

/-! What a program can see of its processor: how far ahead the program counter is when a transfer stores it, and nothing
else. -/

namespace Arm32

namespace Memory.Image

theorem wordsAgree_eq : WordsAgree (Eq : Image → Image → Prop) where
  load same address := by rw [same]
  store same address value := .of_eq (by rw [same])

theorem partsAgree_eq : PartsAgree (Eq : Image → Image → Prop) where
  loadByte same address := by rw [same]
  loadHalfword same address := by rw [same]
  storeByte same address value := .of_eq (by rw [same])
  storeHalfword same address value := .of_eq (by rw [same])

end Memory.Image

namespace Machine

variable {first second : Machine} {fields : SingleTransfer} {counter address : Word}

/-- The machines differ in nothing but their processors and the word at an address, which each has stored for a program
counter. -/
structure ApartAt (counter address : Word) (first second : Machine) : Prop where
  registers : first.registers = second.registers
  status : first.status = second.status
  vfp : first.vfp = second.vfp
  byte : ∀ place, Memory.covers address 4 place = false → first.memory.byteAt? place = second.memory.byteAt? place
  firstWord : first.memory.loadWord address = .ok (counter + 12)
  secondWord : second.memory.loadWord address = .ok (counter + 8)

theorem ApartAt.advance (apart : ApartAt counter address first second) (flow : Flow) :
    ApartAt counter address (first.advance flow) (second.advance flow) := by
  cases flow with
  | next => exact { apart with registers := congrArg (·.advance instructionBytes) apart.registers }
  | branched => exact apart

/-- No way of addressing moves the program counter. -/
theorem transferAddress_programCounter_kept (machine : Machine) (mode : Addressing) (rn : Reg) (amount : Word) :
    Ensures (fun done => done.1.read Reg.pc = machine.read Reg.pc ∧ done.2 = mode.address machine rn amount)
      (machine.transferAddress mode rn amount) := by
  intro done moved
  let others : Footprint :=
    { registers := (· ≠ Reg.pc), bytes := fun _ => False, flags := 0, slots := False, fpscr := 0, fpexc := False }
  -- An update of the program counter would have been refused.
  have updated : mode.updatesBase = true → others.registers rn := by
    rintro updates rfl
    have forbidden : mode.isForbidden Reg.pc = true := by simp [Addressing.isForbidden, updates]
    obtain ⟨refusal, refused⟩ := refused_transferAddress_iff.mpr forbidden
    rw [moved] at refused
    cases refused
  obtain ⟨within, address⟩ := transferAddress_within machine mode rn amount updated done moved
  exact ⟨within.registers Reg.pc (not_not_intro rfl), address⟩

theorem Alike.storeWord_apart (alike : Alike Eq .arm7 .arm8 first second) (address : Word) :
    Agree (ApartAt (first.read Reg.pc) address) (first.storeWord address (first.storeOperand Reg.pc))
      (second.storeWord address (second.storeOperand Reg.pc)) := by
  have firstValue : first.storeOperand Reg.pc = first.read Reg.pc + 12 := by
    rw [Machine.storeOperand, alike.firstProcessor]
    rfl
  have secondValue : second.storeOperand Reg.pc = first.read Reg.pc + 8 := by
    rw [Machine.storeOperand, alike.secondProcessor, alike.read]
    rfl
  rw [firstValue, secondValue]
  unfold Machine.storeWord
  rw [← alike.memory]
  cases access : first.memory.requireAccess .word address with
  | error fault =>
      rw [Memory.Image.storeWord_of_no_access access, Memory.Image.storeWord_of_no_access access]
      exact .errors _
  | ok _ =>
      have firstStored : first.memory.storeWord address (first.read Reg.pc + 12) = _ :=
        Memory.Image.storeWord_of_access access
      have secondStored : first.memory.storeWord address (first.read Reg.pc + 8) = _ :=
        Memory.Image.storeWord_of_access access
      have unchanged := Memory.Image.ChangesOnly.refl (fun place => Memory.covers address 4 place = true) first.memory
      have firstChanges := unchanged.storeWord (fun _ inside => inside) firstStored
      have secondChanges := unchanged.storeWord (fun _ inside => inside) secondStored
      rw [firstStored, secondStored]
      refine .answers ⟨alike.registers, alike.status, alike.vfp, ?_, ?_, ?_⟩
      · intro place outside
        have outside : ¬ Memory.covers address 4 place = true := by simp [outside]
        exact (firstChanges.byteAt? outside).trans (secondChanges.byteAt? outside).symm
      · exact Memory.Image.loadWord_of_storeWord firstStored
      · exact Memory.Image.loadWord_of_storeWord secondStored

theorem Alike.singleTransfer_apart (alike : Alike Eq .arm7 .arm8 first second) (store : fields.transfer = .store)
    (word : fields.quantity = .word) (source : fields.rd = Reg.pc) :
    Agree (fun before after => before.2 = after.2 ∧ ∃ amount, first.transferOffset fields.offset = .ok amount ∧
        ApartAt (first.read Reg.pc) (fields.mode.address first fields.rn amount) before.1 after.1)
      (first.singleTransfer fields) (second.singleTransfer fields) := by
  unfold Machine.singleTransfer
  rw [← alike.transferOffset]
  cases offset : first.transferOffset fields.offset with
  | error refusal => exact .errors refusal
  | ok amount =>
      -- The address and the base are the same on both, and only what is stored there differs.
      show Agree _ (first.transferAddress fields.mode fields.rn amount >>= _)
        (second.transferAddress fields.mode fields.rn amount >>= _)
      have moved := alike.transferAddress fields.mode fields.rn amount
      have kept := transferAddress_programCounter_kept first fields.mode fields.rn amount
      generalize first.transferAddress fields.mode fields.rn amount = firstMoved at moved kept ⊢
      generalize second.transferAddress fields.mode fields.rn amount = secondMoved at moved ⊢
      cases moved with
      | errors refusal => exact .errors refusal
      | @answers firstDone secondDone same =>
          obtain ⟨firstBase, address⟩ := firstDone
          obtain ⟨secondBase, _⟩ := secondDone
          obtain ⟨based, rfl⟩ := same
          obtain ⟨counter, place⟩ := kept (firstBase, address) rfl
          simp only at counter place
          simp only [store, word, source]
          refine (based.storeWord_apart address).bind ?_
          intro before after apart
          rw [counter, place] at apart
          exact .pure ⟨rfl, amount, rfl, apart⟩

/-- A step that stores a word for the program counter. -/
theorem Alike.step_apart (alike : Alike Eq .arm7 .arm8 first second)
    (performed : first.performed? = some (.singleTransfer fields)) (store : fields.transfer = .store)
    (word : fields.quantity = .word) (source : fields.rd = Reg.pc) :
    Agree (fun before after => before.2 = after.2 ∧ ∃ amount, first.transferOffset fields.offset = .ok amount ∧
        ApartAt first.registers.programCounter (fields.mode.address first fields.rn amount) before.1 after.1)
      first.step second.step := by
  obtain ⟨code, fetched, holds, decoded⟩ := exists_word_of_performed? performed
  have sameFetch := alike.fetch Memory.Image.wordsAgree_eq
  rw [step_of_holds fetched holds, step_of_holds (sameFetch ▸ fetched) (alike.status ▸ holds), decoded]
  refine (alike.singleTransfer_apart store word source).map ?_
  rintro ⟨before, flow⟩ ⟨after, _⟩ ⟨rfl, amount, offset, apart⟩
  exact ⟨rfl, amount, offset, apart.advance flow⟩

end Machine

namespace Emulator

variable {first second : Emulator} {count : Nat}

/-- On either processor a program goes the same way for as long as no transfer stores the program counter. Where one then
stores it as a word, that word is all that differs. -/
theorem processor_agree (start : Machine.Alike Eq .arm7 .arm8 first.machine second.machine)
    (avoided : avoids Instruction.storesProgramCounter count first = true) :
    Agree (fun before after => Related (Machine.Alike Eq .arm7 .arm8) before after ∧
        ∀ fields, before.1.machine.performed? = some (.singleTransfer fields) → fields.transfer = .store →
          fields.quantity = .word → fields.rd = Reg.pc →
            Agree (fun next last => next.2 = last.2 ∧
                ∃ amount, before.1.machine.transferOffset fields.offset = .ok amount ∧
                  Machine.ApartAt before.1.programCounter (fields.mode.address before.1.machine fields.rn amount)
                    next.1.machine last.1.machine)
              before.1.step after.1.step)
      (first.stepTimes count) (second.stepTimes count) := by
  have stepped : Agree (Related (Machine.Alike Eq .arm7 .arm8)) (first.stepTimes count) (second.stepTimes count) := by
    refine stepTimes_alike Memory.Image.wordsAgree_eq ?_ ?_ start avoided
    · exact fun _ _ _ => Memory.Image.partsAgree_eq
    · intro instruction avoids stores
      rw [avoids] at stores
      cases stores
  refine stepped.mono ?_
  intro before after related
  refine ⟨related, ?_⟩
  intro fields performed store word source
  rw [step_eq_map, step_eq_map]
  refine (related.1.step_apart performed store word source).map ?_
  rintro ⟨next, classOf?⟩ ⟨last, _⟩ ⟨rfl, amount, offset, apart⟩
  exact ⟨rfl, amount, offset, apart⟩

/-- A move at 0x1000, and a store of the program counter over it. -/
def counterStore (processor : Processor) : Emulator :=
  let bytes := [0xE3A00005, 0xE581F000].flatMap fun word => (List.range 4).map (ByteOrder.little.byteOfWord word)
  let emulator := ofImage ⟨processor, .little, false⟩
    { base := 0x1000, size := 8, cells := (Memory.Cells.all 0).setFrom 0x1000 bytes, order := .little, fits := by decide }
  { emulator with machine := (emulator.machine.write 1 0x1000).write Reg.pc 0x1000 }

theorem processor_agree_counterStore :
    Machine.Alike Eq .arm7 .arm8 (counterStore .arm7).machine (counterStore .arm8).machine ∧
      avoids Instruction.storesProgramCounter 1 (counterStore .arm7) = true ∧
      ∃ before after, (counterStore .arm7).stepTimes 1 = .ok before ∧ (counterStore .arm8).stepTimes 1 = .ok after ∧
        Agree (fun next last => Machine.ApartAt 0x1004 0x1000 next.1.machine last.1.machine)
          before.1.step after.1.step := by
  have start : Machine.Alike Eq .arm7 .arm8 (counterStore .arm7).machine (counterStore .arm8).machine :=
    ⟨rfl, rfl, rfl, rfl, rfl, rfl⟩
  have avoided : avoids Instruction.storesProgramCounter 1 (counterStore .arm7) = true := rfl
  refine ⟨start, avoided, ?_⟩
  have agree := processor_agree start avoided
  obtain ⟨before, moved, performed, counter, base⟩ : ∃ before, (counterStore .arm7).stepTimes 1 = .ok before ∧
      before.1.machine.performed? = some (.singleTransfer (Instruction.singleTransferOf 0xE581F000)) ∧
      before.1.programCounter = 0x1004 ∧ before.1.machine.read 1 = 0x1000 := ⟨_, rfl, rfl, rfl, rfl⟩
  obtain ⟨after, alsoMoved⟩ : ∃ after, (counterStore .arm8).stepTimes 1 = .ok after := ⟨_, rfl⟩
  rw [moved, alsoMoved] at agree
  refine ⟨before, after, moved, alsoMoved, ?_⟩
  cases agree with
  | answers same =>
      refine (same.2 _ performed rfl rfl rfl).mono ?_
      rintro next last ⟨-, amount, offset, apart⟩
      obtain rfl : 0 = amount := Except.ok.inj offset
      rw [counter] at apart
      have address : (Instruction.singleTransferOf 0xE581F000).mode.address before.1.machine 1 0 = 0x1000 := by
        show before.1.machine.operand 1 prefetch + 0 = 0x1000
        rw [Machine.operand, if_neg (by decide), base]
        rfl
      exact address ▸ apart

end Emulator

end Arm32
