import Arm32.Proofs.Frame.Execution
import Arm32.Proofs.Transfer.Slots
import Arm32.Proofs.Transfer.Stack

/-! Slots that are saved in memory and brought back. A list that goes up is undone by one that goes down, and the other
way round: both go over the same words, and the base ends where it was. -/

namespace Arm32

open Memory (covers)
open Memory.Image (HoldsWords ChangesOnly wordAddress)

theorem Memory.Image.HoldsWords.tail {image : Memory.Image} {address value : Word} {rest : List Word}
    (holds : image.HoldsWords address (value :: rest)) : image.HoldsWords (address + 4) rest := by
  intro index below
  rw [← wordAddress_succ]
  exact holds (index + 1) (Nat.succ_lt_succ below)

namespace Vfp

/-- The slots from one on hold some words, and nothing else is different. -/
structure Registers.Filled (before : Registers) (first : Nat) (words : List Word) (after : Registers) : Prop where
  slots : after.slotsFrom first words.length = words
  kept : ∀ slot : Slot, slot.toNat < first ∨ first + words.length ≤ slot.toNat → after.read slot = before.read slot
  others : after = { before with slots := after.slots }

namespace AddressMode

variable {mode : AddressMode}

def opposite : AddressMode → AddressMode
  | increment => decrement
  | decrement => increment
  | mode => mode

theorem updatesBase_iff : mode.updatesBase = true ↔ mode = increment ∨ mode = decrement := by
  cases mode <;> simp [updatesBase]

theorem updatesBase_opposite (updates : mode.updatesBase = true) : mode.opposite.updatesBase = true := by
  rcases updatesBase_iff.mp updates with rfl | rfl <;> rfl

theorem isMultiple_of_updatesBase (updates : mode.updatesBase = true) : mode.isMultiple = true := by
  rcases updatesBase_iff.mp updates with rfl | rfl <;> rfl

end AddressMode

namespace LoadStore

variable (fields : LoadStore)

/-- The load of the same list in the opposite mode. -/
def restoring : LoadStore := { fields with transfer := .load, mode := fields.mode.opposite }

/-- The base that is written back. -/
def movedBase (base : Word) : Word :=
  let bytes := fields.offset.setWidth 32 * 4
  match fields.mode with
  | .increment => base + bytes
  | .decrement => base - bytes
  | _ => base

variable {fields}

theorem movedBase_restoring (base : Word) : fields.restoring.movedBase (fields.movedBase base) = base := by
  cases mode : fields.mode <;> simp only [restoring, movedBase, AddressMode.opposite, mode] <;> bv_omega

/-- Both go over the same words. -/
theorem start_restoring (updates : fields.mode.updatesBase = true) (base : Word) :
    fields.restoring.start (fields.movedBase base) = fields.start base := by
  rcases AddressMode.updatesBase_iff.mp updates with mode | mode <;>
    simp only [restoring, movedBase, start, AddressMode.opposite, mode]
  bv_omega

end LoadStore

end Vfp

namespace Machine

open Vfp (Slot)

variable {machine middle : Machine} {fields : Vfp.LoadStore} {address : Word} {words : List Word} {first : Nat}

theorem loadSlots_filled (holds : machine.memory.HoldsWords address words) (fits : first + words.length ≤ 32) :
    ∃ vfp, machine.loadSlots address first words.length = .ok { machine with vfp } ∧
      machine.vfp.Filled first words vfp := by
  induction words generalizing machine address first with
  | nil => exact ⟨machine.vfp, rfl, rfl, fun _ _ => rfl, rfl⟩
  | cons word rest ih =>
      rw [List.length_cons] at fits
      have loaded : machine.loadWord address = .ok word := by
        have found := holds 0 (Nat.succ_pos _)
        rw [Memory.Image.wordAddress_zero] at found
        exact loadWord_eq_ok_iff.mpr found
      let target : Slot := BitVec.ofNat 5 first
      have place : target.toNat = first := Slot.toNat_of_number? (Slot.number?_of_lt (by omega))
      obtain ⟨vfp, others, filled⟩ := @ih (machine.withSlot target word) (address + 4) (first + 1) holds.tail (by omega)
      refine ⟨vfp, ?_, ?_, ?_, ?_⟩
      · rw [List.length_cons, loadSlots, loaded, Slot.number?_of_lt (by omega)]
        exact others
      · -- The slots after this one go on without it.
        have first : vfp.read target = word :=
          (filled.kept target (.inl (by omega))).trans (machine.read_withSlot target word)
        rw [List.length_cons, Vfp.Registers.slotsFrom_succ, filled.slots]
        exact congrArg (· :: rest) first
      · intro slot outside
        rw [List.length_cons] at outside
        have apart : slot ≠ target := by
          rintro rfl
          omega
        rw [filled.kept slot (by omega)]
        exact (machine.vfp.read_write target slot word).trans (if_neg apart)
      · exact filled.others

theorem continuing_eq_ok_iff {result : Except Refusal Machine} {flow : Flow} :
    continuing result = .ok (middle, flow) ↔ result = .ok middle ∧ flow = .next := by
  cases result <;> simp [continuing, Except.map, eq_comm]

theorem writeBackBase_eq_ok_iff {rn : Reg} {value : Word} :
    machine.writeBackBase rn value = .ok middle ↔ rn ≠ Reg.pc ∧ middle = machine.write rn value := by
  rw [writeBackBase]
  by_cases counter : rn = Reg.pc
  · rw [require_bind_of_false (by simp [counter])]
    simp [counter]
  · rw [require_bind_of_true (by simp [counter])]
    simp [counter, pure, Except.pure, eq_comm]

theorem vfpLoadStore_of_updatesBase (updates : fields.mode.updatesBase = true) :
    machine.vfpLoadStore fields =
      machine.transferFrom fields.transfer (fields.start (machine.operand fields.rn prefetch)) fields.firstSlot
        fields.offset.toNat >>=
        (·.writeBackBase fields.rn (fields.movedBase (machine.operand fields.rn prefetch))) := by
  rw [vfpLoadStore_of_isMultiple (Vfp.AddressMode.isMultiple_of_updatesBase updates)]
  rcases Vfp.AddressMode.updatesBase_iff.mp updates with mode | mode <;>
    simp only [moveBase, Vfp.LoadStore.movedBase, mode]

end Machine

namespace Vfp.LoadStore

/-- The words of the list are in memory, and the base is behind them. -/
structure Saved (fields : LoadStore) (before after : Machine) : Prop where
  apart : fields.rn ≠ Reg.pc
  words : after.memory.HoldsWords (fields.start (before.read fields.rn))
    (before.vfp.slotsFrom fields.firstSlot fields.offset.toNat)
  kept : ChangesOnly
    (fun address => covers (fields.start (before.read fields.rn)) (4 * fields.offset.toNat) address = true)
    before.memory after.memory
  others : after = { before.write fields.rn (fields.movedBase (before.read fields.rn)) with memory := after.memory }

end Vfp.LoadStore

namespace Machine

open Vfp (Slot)

variable {machine middle : Machine} {flow : Flow} {fields : Vfp.LoadStore} {vfp : Vfp.Registers}

theorem operand_of_ne {rn : Reg} (apart : rn ≠ Reg.pc) (ahead : Word) : machine.operand rn ahead = machine.read rn :=
  if_neg apart

theorem vfpLoadStore_changesOnly (stores : fields.transfer = .store) (multiple : fields.mode.isMultiple = true) :
    Ensures (fun after => ChangesOnly (fun address =>
        covers (fields.start (machine.operand fields.rn prefetch)) (4 * fields.offset.toNat) address = true)
      machine.memory after.memory) (machine.vfpLoadStore fields) := by
  intro after executed
  have changes := (machine.vfpLoadStore_within fields after executed).memory
  refine { changes with byte := fun address outside => changes.byte address ?_ }
  rintro ⟨range, stored, inside⟩
  simp only [Instruction.storedRange?, stores, Vfp.LoadStore.wordCount, multiple, if_true, Option.mem_def,
    Option.some.injEq] at stored
  subst stored
  exact outside inside

theorem saved_of_vfpLoadStore (stores : fields.transfer = .store) (updates : fields.mode.updatesBase = true)
    (fits : fields.firstSlot + fields.offset.toNat ≤ 32) :
    Ensures (fields.Saved machine) (machine.vfpLoadStore fields) := by
  intro after executed
  have multiple := Vfp.AddressMode.isMultiple_of_updatesBase updates
  have words := vfpLoadStore_holdsWords multiple stores fits after executed
  have kept := vfpLoadStore_changesOnly stores multiple after executed
  rw [vfpLoadStore_of_updatesBase updates, stores] at executed
  simp only [transferFrom] at executed
  rw [storeSlots_eq fits] at executed
  cases stored : machine.memory.storeWords (fields.start (machine.operand fields.rn prefetch))
      (machine.vfp.slotsFrom fields.firstSlot fields.offset.toNat) with
  | error fault => simp [stored, withMemory, bind, Except.bind] at executed
  | ok memory =>
      rw [stored] at executed
      obtain ⟨apart, rfl⟩ := writeBackBase_eq_ok_iff.mp executed
      rw [operand_of_ne apart] at words kept
      refine ⟨apart, words, kept, ?_⟩
      rw [operand_of_ne apart]
      rfl

/-- What was saved is loaded back, whatever the slots hold by then. -/
theorem vfpLoadStore_restoring (saved : fields.Saved machine middle) (updates : fields.mode.updatesBase = true)
    (fits : fields.firstSlot + fields.offset.toNat ≤ 32) (overwritten : Vfp.Registers) :
    ∃ vfp, { middle with vfp := overwritten }.vfpLoadStore fields.restoring =
        .ok { machine with memory := middle.memory, vfp } ∧
      overwritten.Filled fields.firstSlot (machine.vfp.slotsFrom fields.firstSlot fields.offset.toNat) vfp := by
  have read (reg : Reg) : middle.read reg =
      if reg = fields.rn then fields.movedBase (machine.read fields.rn) else machine.read reg := by
    rw [saved.others]
    exact machine.read_write fields.rn reg _
  have base : { middle with vfp := overwritten }.operand fields.rn prefetch =
      fields.movedBase (machine.read fields.rn) :=
    (operand_of_ne saved.apart prefetch).trans ((read fields.rn).trans (if_pos rfl))
  have registers : middle.registers.write fields.rn (machine.read fields.rn) = machine.registers := by
    refine Registers.eq_of_read fun reg => ?_
    rw [Registers.read_write]
    split
    · next same => rw [same]; rfl
    · next apart => exact (read reg).trans (if_neg apart)
  obtain ⟨vfp, loaded, filled⟩ := @loadSlots_filled { middle with vfp := overwritten } _ _ fields.firstSlot saved.words
    (by rwa [Vfp.Registers.length_slotsFrom])
  refine ⟨vfp, ?_, filled⟩
  rw [Vfp.Registers.length_slotsFrom] at loaded
  have again : fields.restoring.firstSlot = fields.firstSlot := rfl
  rw [vfpLoadStore_of_updatesBase (Vfp.AddressMode.updatesBase_opposite updates)]
  calc { middle with vfp := overwritten }.transferFrom .load (fields.restoring.start
          ({ middle with vfp := overwritten }.operand fields.rn prefetch)) fields.firstSlot fields.offset.toNat >>=
        (·.writeBackBase fields.rn (fields.restoring.movedBase
          ({ middle with vfp := overwritten }.operand fields.rn prefetch)))
    _ = { middle with vfp }.writeBackBase fields.rn (machine.read fields.rn) := by
        rw [base, Vfp.LoadStore.start_restoring updates, Vfp.LoadStore.movedBase_restoring, transferFrom, loaded]
        rfl
    _ = .ok ({ middle with vfp }.write fields.rn (machine.read fields.rn)) :=
        writeBackBase_eq_ok_iff.mpr ⟨saved.apart, rfl⟩
    _ = .ok { middle with vfp, registers := machine.registers } :=
        congrArg (fun registers => Except.ok { middle with vfp, registers }) registers
    _ = .ok { machine with memory := middle.memory, vfp } :=
        congrArg (fun left : Machine => Except.ok { left with vfp, registers := machine.registers }) saved.others

/-- Slots that are stored with write-back come back bit for bit when the same list is loaded in the opposite mode,
whatever they have been overwritten with, and the base comes back with them. All that is left of both is in the words of
the list. -/
theorem execute_restoringSlots {save restore : Word} (saves : Instruction.decode save = .vfp (.loadStore fields))
    (restores : Instruction.decode restore = .vfp (.loadStore fields.restoring))
    (alwaysSaves : Condition.ofWord save = .al) (alwaysRestores : Condition.ofWord restore = .al)
    (stores : fields.transfer = .store) (updates : fields.mode.updatesBase = true)
    (fits : fields.firstSlot + fields.offset.toNat ≤ 32) (saved : machine.execute save = .ok (middle, flow))
    (overwritten : Vector Word 32) :
    ∃ restored : Vector Word 32,
      { middle with vfp := { middle.vfp with slots := overwritten } }.execute restore =
        .ok ({ machine with memory := middle.memory, vfp := { machine.vfp with slots := restored } }, .next) ∧
      (∀ slot : Slot, fields.Spans slot → restored.get slot.toFin = machine.vfp.read slot) ∧
      (∀ slot : Slot, ¬ fields.Spans slot → restored.get slot.toFin = overwritten.get slot.toFin) ∧
      ChangesOnly (fun address => covers (fields.start (machine.read fields.rn)) (4 * fields.offset.toNat) address = true)
        machine.memory middle.memory := by
  rw [execute_of_holds (by rw [alwaysSaves]; rfl), saves] at saved
  rw [execute_of_holds (by rw [alwaysRestores]; rfl), restores]
  have written := saved_of_vfpLoadStore stores updates fits middle (continuing_eq_ok_iff.mp saved).1
  let between : Vfp.Registers := { middle.vfp with slots := overwritten }
  obtain ⟨vfp, loaded, filled⟩ := vfpLoadStore_restoring written updates fits between
  have others : vfp = { machine.vfp with slots := vfp.slots } :=
    filled.others.trans (congrArg (fun left : Machine => { left.vfp with slots := vfp.slots }) written.others)
  refine ⟨vfp.slots, ?_, ?_, ?_, written.kept⟩
  · rw [← others]
    exact continuing_eq_ok_iff.mpr ⟨loaded, rfl⟩
  · intro slot inside
    have same : vfp.slotsFrom fields.firstSlot fields.offset.toNat =
        machine.vfp.slotsFrom fields.firstSlot fields.offset.toNat := by
      simpa only [Vfp.Registers.length_slotsFrom] using filled.slots
    exact Vfp.Registers.read_of_slotsFrom inside same
  · intro slot outside
    refine filled.kept slot ?_
    rw [Vfp.Registers.length_slotsFrom]
    rw [Vfp.LoadStore.Spans] at outside
    omega

/-- Three words from the second double on: a quiet and a signalling NaN, and half of the double after it. -/
def withPatterns : Machine :=
  let vfp := ((Vfp.Registers.zero.write 2 0x7fc01234).write 3 0xff800001).write 4 0x89abcdef
  { (ofImage .arm7 { base := 0, size := 16, cells := .all 0, order := .big, fits := by decide }).write Reg.sp 16 with vfp }

/-- A list of doubles onto a stack that grows downwards, and all slots cleared before it is taken back. -/
theorem execute_restoringSlots_patterns :
    ∃ middle, withPatterns.execute 0xED2D1B03 = .ok (middle, .next) ∧ middle.read Reg.sp = 4 ∧
      ∃ restored : Vector Word 32,
        { middle with vfp := { middle.vfp with slots := Vector.replicate 32 0 } }.execute 0xECBD1B03 =
          .ok ({ withPatterns with memory := middle.memory, vfp := { withPatterns.vfp with slots := restored } }, .next) ∧
        restored.get 2 = 0x7fc01234 ∧ restored.get 3 = 0xff800001 ∧ restored.get 4 = 0x89abcdef ∧ restored.get 5 = 0 := by
  let fields : Vfp.LoadStore :=
    { precision := .double, mode := .decrement, transfer := .store, rn := Reg.sp, fd := 2, offset := 3 }
  have saves : Instruction.decode 0xED2D1B03 = .vfp (.loadStore fields) := rfl
  have restores : Instruction.decode 0xECBD1B03 = .vfp (.loadStore fields.restoring) := rfl
  have saved : withPatterns.execute 0xED2D1B03 = .ok (_, .next) := rfl
  obtain ⟨restored, executed, inside, outside, -⟩ := execute_restoringSlots saves restores rfl rfl rfl rfl (by decide)
    saved (Vector.replicate 32 0)
  refine ⟨_, saved, rfl, restored, executed, inside 2 ?_, inside 3 ?_, inside 4 ?_, outside 5 ?_⟩ <;>
    simp only [Vfp.LoadStore.Spans] <;> decide

end Machine

end Arm32
