import Arm32.Proofs.Emulation.Sequence
import Arm32.Proofs.Frame.Execution

/-! What no step changes, and what a step changes only for a reason. A step stays within the footprint of the instruction
that it carries out, so the one list of footprints gives both: the invariants of every emulator that can be reached, and
the instruction to which a difference in a part of the machine can be traced back. -/

namespace Arm32

/-- Moving on is a change of the program counter. -/
def Footprint.movesOn (footprint : Footprint) : Footprint :=
  { footprint with registers := fun reg => reg = Reg.pc ∨ footprint.registers reg }

/-- Only flags are ever set. -/
theorem Instruction.flagMask_and_not (instruction : Instruction) : instruction.flagMask &&& ~~~Psr.flagMask = 0 := by
  unfold flagMask
  split
  · decide
  · split
    · decide
    · split <;> decide

namespace Machine

variable {allowed : Footprint} {before after machine : Machine} {classOf? : Option InstructionClass}
  {instruction : Instruction}

theorem Within.movesOn (within : Within allowed before machine) : Within allowed.movesOn before machine := by
  have vfp : Vfp.Registers.Within allowed.movesOn before.vfp machine.vfp :=
    ⟨within.vfp.slots, within.vfp.fpscr, within.vfp.fpsid, within.vfp.fpexc⟩
  refine ⟨?_, within.status, within.memory, vfp, within.processor⟩
  intro reg outside
  exact within.registers reg fun inside => outside (.inr inside)

theorem Within.advance (within : Within allowed before machine) (flow : Flow) :
    Within allowed.movesOn before (machine.advance flow) := by
  cases flow with
  | next => exact within.movesOn.write (.inl rfl) _
  | branched => exact within.movesOn

/-- The next step carries out an instruction of a kind. -/
def Carries (machine : Machine) (kind : Instruction → Prop) : Prop := ∃ instruction ∈ machine.performed?, kind instruction

/-- The footprint of the next step: that of the instruction it carries out, and the program counter. -/
def stepFootprint (machine : Machine) : Footprint :=
  { registers := fun reg => reg = Reg.pc ∨ machine.Carries (·.Changes reg)
    bytes := fun address => machine.Carries (·.StoresTo machine address)
    flags := machine.performed?.elim 0 Instruction.flagMask
    slots := machine.Carries (·.writesSlots = true)
    fpscr := machine.performed?.elim 0 Instruction.fpscrMask
    fpexc := machine.Carries (·.isSystemMove = true) }

theorem stepFootprint_of_performed (performed : machine.performed? = some instruction) :
    machine.stepFootprint = (instruction.footprint machine).movesOn := by
  simp [stepFootprint, Carries, performed, Instruction.footprint, Footprint.movesOn]

theorem step_within (stepped : machine.step = .ok (after, classOf?)) : Within machine.stepFootprint machine after := by
  obtain ⟨-, rfl, -⟩ | ⟨word, -, -, rfl | ⟨middle, flow, performed, done, rfl⟩⟩ := step_cases stepped
  · exact .refl _ after
  · exact (Within.refl _ machine).write (Or.inl rfl) _
  · have within := perform_within machine word (Instruction.decode word) (middle, flow) done
    rw [stepFootprint_of_performed performed]
    exact within.advance flow

/-! ### Reasons for a change -/

/-- Every difference that a step makes, apart from the program counter, comes from an instruction that makes it. -/
structure StepFrame (before after : Machine) : Prop where
  memory (address : Word) : after.memory.byteAt? address ≠ before.memory.byteAt? address →
    before.Carries (·.StoresTo before address)
  status : after.status ≠ before.status → before.Carries (·.setsFlags = true)
  overflow : after.status.overflow ≠ before.status.overflow →
    before.Carries fun instruction => instruction.isLogical = false ∧ instruction.multiplies = false
  carry : after.status.carry ≠ before.status.carry → before.Carries (·.multiplies = false)
  fpscr : after.vfp.fpscr ≠ before.vfp.fpscr →
    before.Carries fun instruction => instruction.isSystemMove = true ∨
      instruction.isCompare = true ∧ ∀ bit < 28, after.vfp.fpscr.getLsbD bit = before.vfp.fpscr.getLsbD bit
  fpexc : after.vfp.fpexc ≠ before.vfp.fpexc → before.Carries (·.isSystemMove = true)
  slot (slot : Vfp.Slot) : after.vfp.read slot ≠ before.vfp.read slot → before.Carries (·.writesSlots = true)
  register (reg : Reg) : reg ≠ Reg.pc → after.read reg ≠ before.read reg → before.Carries (·.Changes reg)

/-- A bit that is kept outside of the mask of the instruction carried out, if any, and that differs. -/
theorem carries_of_bit {mask : Instruction → Word} (part : Machine → Word) {bit : Nat}
    (kept : part after &&& ~~~(before.performed?.elim 0 mask) = part before &&& ~~~(before.performed?.elim 0 mask))
    (differs : (part after).getLsbD bit ≠ (part before).getLsbD bit) :
    before.Carries fun instruction => (mask instruction).getLsbD bit = true := by
  by_contra absent
  refine differs (getLsbD_of_and_not kept ?_)
  cases performed : before.performed? with
  | none => exact BitVec.getLsbD_zero
  | some instruction =>
      have outside : ¬ (mask instruction).getLsbD bit = true := fun inside => absent ⟨instruction, performed, inside⟩
      simpa using outside

theorem exists_bit_of_ne {width : Nat} {first second : BitVec width} (differs : first ≠ second) :
    ∃ bit, first.getLsbD bit ≠ second.getLsbD bit := by
  by_contra same
  push Not at same
  exact differs (BitVec.eq_of_getLsbD_eq fun bit _ => same bit)

end Machine

namespace Instruction

variable {instruction : Instruction} {bit : Nat}

theorem setsFlags_of_flagMask (inside : instruction.flagMask.getLsbD bit = true) : instruction.setsFlags = true := by
  cases sets : instruction.setsFlags with
  | true => rfl
  | false => simp [flagMask, sets] at inside

theorem not_multiplies_of_flagMask (inside : instruction.flagMask.getLsbD bit = true) (low : bit < 30) :
    instruction.multiplies = false := by
  cases product : instruction.multiplies with
  | false => rfl
  | true =>
      have outside : ∀ place < 30, Psr.resultMask.getLsbD place = false := by decide
      simp [flagMask, setsFlags_of_flagMask inside, product, outside bit low] at inside

theorem not_isLogical_of_flagMask (inside : instruction.flagMask.getLsbD bit = true) (low : bit < 29) :
    instruction.isLogical = false := by
  have product := not_multiplies_of_flagMask inside (by omega)
  cases logical : instruction.isLogical with
  | false => rfl
  | true =>
      have outside : ∀ place < 29, Psr.logicalMask.getLsbD place = false := by decide
      simp [flagMask, setsFlags_of_flagMask inside, product, logical, outside bit low] at inside

end Instruction

namespace Machine

theorem StepFrame.of_within (within : Within before.stepFootprint before after) : StepFrame before after := by
  have flag {bit : Nat} (differs : after.status.bits.getLsbD bit ≠ before.status.bits.getLsbD bit) :
      before.Carries fun instruction => instruction.flagMask.getLsbD bit = true :=
    carries_of_bit (·.status.bits) within.status differs
  have fpscr {bit : Nat} (differs : after.vfp.fpscr.getLsbD bit ≠ before.vfp.fpscr.getLsbD bit) :
      before.Carries fun instruction => instruction.fpscrMask.getLsbD bit = true :=
    carries_of_bit (·.vfp.fpscr) within.vfp.fpscr differs
  refine ⟨?memory, ?status, ?overflow, ?carry, ?fpscr, ?fpexc, ?slot, ?register⟩
  case memory =>
    intro address differs
    by_contra absent
    exact differs (within.memory.byteAt? absent)
  case status =>
    intro differs
    obtain ⟨bit, changed⟩ := exists_bit_of_ne fun same => differs (congrArg Psr.mk same)
    obtain ⟨instruction, performed, inside⟩ := flag changed
    exact ⟨instruction, performed, Instruction.setsFlags_of_flagMask inside⟩
  case overflow =>
    intro differs
    obtain ⟨instruction, performed, inside⟩ := flag differs
    exact ⟨instruction, performed, Instruction.not_isLogical_of_flagMask inside (by decide),
      Instruction.not_multiplies_of_flagMask inside (by decide)⟩
  case carry =>
    intro differs
    obtain ⟨instruction, performed, inside⟩ := flag differs
    exact ⟨instruction, performed, Instruction.not_multiplies_of_flagMask inside (by decide)⟩
  case fpscr =>
    intro differs
    obtain ⟨bit, changed⟩ := exists_bit_of_ne differs
    obtain ⟨instruction, performed, inside⟩ := fpscr changed
    refine ⟨instruction, performed, ?_⟩
    cases moves : instruction.isSystemMove with
    | true => exact .inl moves
    | false =>
        cases compares : instruction.isCompare with
        | false => simp [Instruction.fpscrMask, moves, compares] at inside
        | true =>
            refine .inr ⟨rfl, ?_⟩
            intro low below
            by_contra lowChanged
            -- Only one instruction was carried out, so it would have to be a compare that changes a low bit.
            obtain ⟨other, same, lowInside⟩ := fpscr lowChanged
            obtain rfl : instruction = other := Option.some.inj (performed.symm.trans same)
            have outside : ∀ place < 28, Vfp.Registers.flagMask.getLsbD place = false := by decide
            simp [Instruction.fpscrMask, moves, compares, outside low below] at lowInside
  case fpexc =>
    intro differs
    by_contra absent
    exact differs (within.vfp.fpexc absent)
  case slot =>
    intro slot differs
    by_contra absent
    exact differs (by rw [Vfp.Registers.read, Vfp.Registers.read, within.vfp.slots absent])
  case register =>
    intro reg apart differs
    by_contra absent
    exact differs (within.registers reg (not_or_intro apart absent))

theorem stepFootprint_flags (machine : Machine) : machine.stepFootprint.flags &&& ~~~Psr.flagMask = 0 := by
  unfold stepFootprint
  cases machine.performed? with
  | none => exact BitVec.zero_and
  | some instruction => exact instruction.flagMask_and_not

end Machine

/-! ### Invariants -/

namespace Emulator

/-- The emulators that come from a new one by steps, runs, and writes of its registers and its flags. -/
inductive Reachable (settings : EmulatorSettings) (image : Memory.Image) : Emulator → Prop where
  | ofImage : Reachable settings image (ofImage settings image)
  | step {emulator after : Emulator} {classOf? : Option InstructionClass} (reached : Reachable settings image emulator)
      (stepped : emulator.step = .ok (after, classOf?)) : Reachable settings image after
  | run {emulator after : Emulator} {start : Word} {budget : Option Nat} {outcome : RunOutcome}
      (reached : Reachable settings image emulator) (ran : emulator.run start budget = .ok (after, outcome)) :
      Reachable settings image after
  | setRegister {emulator after : Emulator} {index : Nat} {value : Word} (reached : Reachable settings image emulator)
      (set : emulator.setRegister index value = .ok after) : Reachable settings image after
  | setFlags {emulator : Emulator} (reached : Reachable settings image emulator) (value : Word) :
      Reachable settings image (emulator.setFlags value)

theorem settings_of_step {emulator after : Emulator} {classOf? : Option InstructionClass}
    (stepped : emulator.step = .ok (after, classOf?)) : after.settings = emulator.settings := by
  obtain ⟨machine, machineStepped, rfl⟩ := step_eq_ok_iff.mp stepped
  simp only [settings, (Machine.step_within machineStepped).processor]

structure Invariant (settings : EmulatorSettings) (image : Memory.Image) (emulator : Emulator) : Prop where
  flags : ∀ bit < 28, emulator.machine.status.bits.getLsbD bit = false
  identification : emulator.machine.vfp.system .fpsid = .ok 0
  base : emulator.machine.memory.base = image.base
  size : emulator.machine.memory.size = image.size
  order : emulator.machine.memory.order = settings.byteOrder
  settings : emulator.settings = settings

namespace Invariant

variable {settings : EmulatorSettings} {image : Memory.Image} {emulator after : Emulator} {count : Nat}
  {classOf? : Option InstructionClass}

theorem ofImage (settings : EmulatorSettings) (image : Memory.Image) : Invariant settings image (ofImage settings image) := by
  refine ⟨?_, rfl, rfl, rfl, rfl, rfl⟩
  intro bit _
  exact BitVec.getLsbD_zero

theorem setFlags (invariant : Invariant settings image emulator) (value : Word) :
    Invariant settings image (emulator.setFlags value) := by
  refine { invariant with flags := ?_ }
  intro bit low
  have outside : ∀ place < 28, Psr.flagMask.getLsbD place = false := by decide
  exact (getLsbD_of_and_not Psr.setFlags_and_not (outside bit low)).trans (invariant.flags bit low)

theorem setRegister {index : Nat} {value : Word} (invariant : Invariant settings image emulator)
    (set : emulator.setRegister index value = .ok after) : Invariant settings image after := by
  unfold Emulator.setRegister at set
  split at set
  · cases set
    exact { invariant with }
  · cases set

theorem step (invariant : Invariant settings image emulator) (stepped : emulator.step = .ok (after, classOf?)) :
    Invariant settings image after := by
  have sameSettings := settings_of_step stepped
  obtain ⟨machine, machineStepped, rfl⟩ := step_eq_ok_iff.mp stepped
  have within := Machine.step_within machineStepped
  refine ⟨?flags, ?identification, ?base, ?size, ?order, ?settings⟩
  case flags =>
    intro bit low
    have outside : ∀ place < 28, Psr.flagMask.getLsbD place = false := by decide
    have kept := and_not_of_and_not within.status emulator.machine.stepFootprint_flags
    exact (getLsbD_of_and_not kept (outside bit low)).trans (invariant.flags bit low)
  case identification => exact (congrArg Except.ok within.vfp.fpsid).trans invariant.identification
  case base => exact within.memory.base.trans invariant.base
  case size => exact within.memory.size.trans invariant.size
  case order => exact within.memory.order.trans invariant.order
  case settings => exact sameSettings.trans invariant.settings

theorem steps (invariant : Invariant settings image emulator) (steps : Steps count emulator after) :
    Invariant settings image after := by
  induction steps with
  | refl emulator => exact invariant
  | cons first rest ih => exact ih (invariant.step first)

theorem run {start : Word} {budget : Option Nat} {outcome : RunOutcome} (invariant : Invariant settings image emulator)
    (ran : emulator.run start budget = .ok (after, outcome)) : Invariant settings image after := by
  obtain ⟨-, steps, -⟩ := run_eq_ok_iff.mp ran
  have started : Invariant settings image (emulator.startAt start) := { invariant with }
  exact started.steps steps

theorem of_reachable (reached : Reachable settings image emulator) : Invariant settings image emulator := by
  induction reached with
  | ofImage => exact ofImage settings image
  | step _ stepped ih => exact ih.step stepped
  | run _ ran ih => exact ih.run ran
  | setRegister _ set ih => exact ih.setRegister set
  | setFlags _ value ih => exact ih.setFlags value

end Invariant

/-- Whatever is done with a new emulator, its invariants hold, and a step changes nothing without a reason. -/
theorem reachable_invariant_and_step_frame (settings : EmulatorSettings) (image : Memory.Image) :
    (∀ emulator, Reachable settings image emulator → Invariant settings image emulator) ∧
      ∀ (emulator after : Emulator) (classOf? : Option InstructionClass), emulator.step = .ok (after, classOf?) →
        Machine.StepFrame emulator.machine after.machine := by
  refine ⟨fun emulator reached => .of_reachable reached, ?_⟩
  intro emulator after classOf? stepped
  obtain ⟨machine, machineStepped, rfl⟩ := step_eq_ok_iff.mp stepped
  exact .of_within (Machine.step_within machineStepped)

/-- An image of one instruction, which stores the first register where the second points. -/
def storeImage : Memory.Image :=
  { base := 0x2000
    size := 4
    cells := (Memory.Cells.all 0).setFrom 0x2000 ((List.range 4).map (ByteOrder.little.byteOfWord 0xE5810000))
    order := .little
    fits := by decide }

/-- The store is the next instruction, and points at itself. -/
def selfStore : Emulator :=
  let flagged := (ofImage ⟨.arm7, .little, false⟩ storeImage).setFlags 0xffffffff
  { flagged with machine := (flagged.machine.write 1 0x2000).write Reg.pc 0x2000 }

theorem reachable_selfStore : Reachable ⟨.arm7, .little, false⟩ storeImage selfStore := by
  have flagged : Reachable ⟨.arm7, .little, false⟩ storeImage
      ((ofImage ⟨.arm7, .little, false⟩ storeImage).setFlags 0xffffffff) := .setFlags .ofImage _
  have pointing := flagged.setRegister (rfl : setRegister _ 1 0x2000 = .ok _)
  exact pointing.setRegister (rfl : setRegister _ 15 0x2000 = .ok selfStore)

theorem selfStore_invariant_and_step_frame :
    ∃ after, selfStore.step = .ok (after, some .singleTransfer) ∧
      Invariant ⟨.arm7, .little, false⟩ storeImage selfStore ∧ Machine.StepFrame selfStore.machine after.machine ∧
      after.machine.memory.byteAt? 0x2003 ≠ selfStore.machine.memory.byteAt? 0x2003 := by
  obtain ⟨after, stepped, stored⟩ : ∃ after, selfStore.step = .ok (after, some .singleTransfer) ∧
      after.machine.memory.byteAt? 0x2003 = some 0 := ⟨_, rfl, rfl⟩
  obtain ⟨invariant, frame⟩ := reachable_invariant_and_step_frame ⟨.arm7, .little, false⟩ storeImage
  refine ⟨after, stepped, invariant selfStore reachable_selfStore, frame selfStore after _ stepped, ?_⟩
  rw [stored]
  decide

end Emulator
end Arm32
