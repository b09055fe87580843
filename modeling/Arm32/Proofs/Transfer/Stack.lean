import Arm32.Proofs.Transfer.Block

/-! Registers that are put on a stack and taken back. A stack may grow either way, with its pointer at the last word or
next to it, as long as what takes the registers back goes the opposite way. -/

namespace Arm32

open Memory (covers)
open Memory.Image (wordAddress ChangesOnly)

theorem Registers.eq_of_read {first second : Registers} (same : ∀ reg, first.read reg = second.read reg) :
    first = second := by
  obtain ⟨cells⟩ := first
  obtain ⟨others⟩ := second
  congr 1
  refine Vector.ext fun index below => ?_
  simpa [read, Vector.get] using same (BitVec.ofNatLT index below)

def Indexing.opposite : Indexing → Indexing
  | post => pre
  | pre => post

namespace Direction

def opposite : Direction → Direction
  | down => up
  | up => down

theorem apply_opposite (direction : Direction) (base amount : Word) :
    direction.opposite.apply (direction.apply base amount) amount = base := by
  cases direction <;> simp only [opposite, apply] <;> bv_omega

end Direction

/-- Increment after for decrement before, increment before for decrement after, and the other way round. -/
def Addressing.opposite (mode : Addressing) : Addressing :=
  { mode with indexing := mode.indexing.opposite, direction := mode.direction.opposite }

namespace BlockTransfer

variable (fields : BlockTransfer)

/-- The load of the same list in the opposite mode. -/
def restoring : BlockTransfer := { fields with transfer := .load, mode := fields.mode.opposite }

theorem movedBase_restoring (base : Word) : fields.restoring.movedBase (fields.movedBase base) = base :=
  fields.mode.direction.apply_opposite base _

/-- Both go over the same words. -/
theorem lowest_restoring (base : Word) : fields.restoring.lowest (fields.movedBase base) = fields.lowest base := by
  have registers : fields.restoring.registers = fields.registers := rfl
  cases direction : fields.mode.direction <;> cases indexing : fields.mode.indexing <;>
    simp only [lowest, registers] <;>
    simp only [restoring, Addressing.opposite, Direction.opposite, Indexing.opposite, movedBase, direction, indexing,
      Direction.apply] <;>
    bv_omega

variable {fields} {machine middle last : Machine} {overwritten : Registers}

namespace Stored

theorem base (stored : fields.Stored machine middle) (back : fields.mode.writeBack = true) :
    middle.read fields.rn = fields.movedBase (machine.read fields.rn) := by
  rw [stored.others]
  exact (machine.read_writtenBack fields fields.rn).trans (if_pos ⟨back, rfl⟩)

theorem read_of_ne (stored : fields.Stored machine middle) {reg : Reg} (apart : reg ≠ fields.rn) :
    middle.read reg = machine.read reg := by
  rw [stored.others]
  exact (machine.read_writtenBack fields reg).trans (if_neg fun both => apart both.2)

/-- Once a list is stored, its words can be loaded, whatever the listed registers hold by then. -/
theorem accessible (stored : fields.Stored machine middle)
    (moved : overwritten.read fields.rn = fields.movedBase (machine.read fields.rn)) :
    fields.restoring.IsAccessible { middle with registers := overwritten } := by
  intro index below
  have lowest : fields.restoring.lowest (overwritten.read fields.rn) = fields.lowest (machine.read fields.rn) := by
    rw [moved, fields.lowest_restoring]
  show middle.memory.requireAccess .word (wordAddress (fields.restoring.lowest (overwritten.read fields.rn)) index) = _
  rw [lowest]
  refine stored.words.access ?_
  rw [List.length_map]
  exact below

theorem read_listed (stored : fields.Stored machine middle)
    (loaded : fields.restoring.Loaded { middle with registers := overwritten } last)
    (moved : overwritten.read fields.rn = fields.movedBase (machine.read fields.rn)) {reg : Reg}
    (listed : fields.lists reg = true) : last.read reg = machine.read reg := by
  have words : middle.memory.HoldsWords (fields.restoring.lowest (overwritten.read fields.rn))
      (fields.registers.map last.read) := loaded.words
  rw [moved, fields.lowest_restoring] at words
  have same : fields.registers.map last.read = fields.registers.map machine.read :=
    words.unique stored.words (by simp)
  exact List.map_inj_left.mp same reg (mem_registers.mpr listed)

theorem read_unlisted (stored : fields.Stored machine middle)
    (loaded : fields.restoring.Loaded { middle with registers := overwritten } last)
    (back : fields.mode.writeBack = true)
    (kept : ∀ reg, fields.lists reg = false → overwritten.read reg = middle.read reg) {reg : Reg}
    (outside : fields.lists reg = false) : last.read reg = machine.read reg := by
  rw [loaded.kept reg outside, Machine.read_writtenBack]
  by_cases same : reg = fields.rn
  · subst same
    rw [if_pos ⟨back, rfl⟩]
    show fields.restoring.movedBase (overwritten.read fields.rn) = _
    rw [kept _ outside, stored.base back, fields.movedBase_restoring]
  · rw [if_neg fun both => same both.2]
    exact (kept reg outside).trans (stored.read_of_ne same)

/-- The state that a list is loaded back into is the one that it was stored from, but for memory. -/
theorem restored (stored : fields.Stored machine middle)
    (loaded : fields.restoring.Loaded { middle with registers := overwritten } last)
    (back : fields.mode.writeBack = true) (moved : overwritten.read fields.rn = fields.movedBase (machine.read fields.rn))
    (kept : ∀ reg, fields.lists reg = false → overwritten.read reg = middle.read reg) :
    last = { machine with memory := middle.memory } := by
  have registers : last.registers = machine.registers := by
    refine Registers.eq_of_read ?_
    intro reg
    cases listed : fields.lists reg with
    | true => exact stored.read_listed loaded moved listed
    | false => exact stored.read_unlisted loaded back kept listed
  have others := stored.others
  rw [writtenBack, back, if_pos rfl] at others
  calc last
    _ = { middle with registers := last.registers } := loaded.others
    _ = { middle with registers := machine.registers } := by rw [registers]
    _ = { machine with memory := middle.memory } :=
      congrArg (fun left : Machine => { left with registers := machine.registers }) others

end Stored

end BlockTransfer

namespace Machine

variable {machine middle : Machine} {flow : Flow} {fields : BlockTransfer} {overwritten : Registers}

theorem blockTransfer_restoring (stores : fields.transfer = .store) (back : fields.mode.writeBack = true)
    (pushed : machine.blockTransfer fields = .ok (middle, flow)) (stored : fields.Stored machine middle)
    (kept : ∀ reg, fields.lists reg = false → overwritten.read reg = middle.read reg) :
    { middle with registers := overwritten }.blockTransfer fields.restoring =
      .ok ({ machine with memory := middle.memory }, .next) := by
  obtain ⟨permitted, -⟩ := (machine.exists_blockTransfer_iff fields).mp ⟨_, pushed⟩
  simp only [BlockTransfer.isForbidden, stores, back, BEq.rfl, Bool.true_and, Bool.or_eq_false_iff] at permitted
  obtain ⟨⟨privileged, apart⟩, noCounter, noBase⟩ := permitted
  have moved : overwritten.read fields.rn = fields.movedBase (machine.read fields.rn) :=
    (kept fields.rn noBase).trans (stored.base back)
  have again : fields.restoring.isForbidden = false := by
    simp [BlockTransfer.isForbidden, BlockTransfer.restoring, privileged, apart]
  obtain ⟨⟨last, ends⟩, popped⟩ := exists_blockTransfer _ fields.restoring again (stored.accessible moved)
  have loaded : fields.restoring.Loaded { middle with registers := overwritten } last :=
    blockTransfer_transferred _ fields.restoring _ popped
  have ended : ends = .next := by
    have reports := blockTransfer_reports _ fields.restoring _ popped
    cases ends with
    | next => rfl
    | branched => exact Bool.noConfusion (noCounter.symm.trans reports.1)
  rw [popped, ended, stored.restored loaded back moved kept]

/-- Registers that are stored with write-back come back when the same list is loaded in the opposite mode, whatever they
have been overwritten with, and the base comes back with them. All that is left of both is in the words of the block. -/
theorem execute_restoring {push pop : Word} (pushes : Instruction.decode push = .blockTransfer fields)
    (pops : Instruction.decode pop = .blockTransfer fields.restoring) (alwaysPushes : Condition.ofWord push = .al)
    (alwaysPops : Condition.ofWord pop = .al) (stores : fields.transfer = .store) (back : fields.mode.writeBack = true)
    (pushed : machine.execute push = .ok (middle, flow))
    (kept : ∀ reg, fields.lists reg = false → overwritten.read reg = middle.read reg) :
    { middle with registers := overwritten }.execute pop = .ok ({ machine with memory := middle.memory }, .next) ∧
      ChangesOnly
        (fun address => covers (fields.lowest (machine.read fields.rn)) (4 * fields.registers.length) address = true)
        machine.memory middle.memory := by
  rw [execute_of_holds (by rw [alwaysPushes]; rfl), pushes] at pushed
  rw [@execute_of_holds { middle with registers := overwritten } pop (by rw [alwaysPops]; rfl), pops]
  have stored : fields.Stored machine middle := by
    have transferred := machine.blockTransfer_transferred fields _ pushed
    unfold BlockTransfer.Transferred at transferred
    rwa [stores] at transferred
  exact ⟨blockTransfer_restoring stores back pushed stored kept, stored.kept⟩

/-- A stack of two words, its pointer one past them. -/
def withStack : Machine :=
  (((ofImage .arm7 { base := 0, size := 8, cells := .all 0, order := .little, fits := by decide }).write 0 7).write 4
    9).write Reg.sp 8

/-- Two registers onto a stack that grows downwards. What they are overwritten with are zeros here. -/
theorem execute_restoring_stack :
    ∃ middle, withStack.execute 0xE92D0011 = .ok (middle, .next) ∧ middle.read Reg.sp = 0 ∧
      { middle with registers := (middle.write 0 0).registers.write 4 0 }.execute 0xE8BD0011 =
        .ok ({ withStack with memory := middle.memory }, .next) := by
  have pushed : withStack.execute 0xE92D0011 = .ok (_, .next) := rfl
  have pushes : Instruction.decode 0xE92D0011 = .blockTransfer (Instruction.blockTransferOf 0xE92D0011) := rfl
  exact ⟨_, pushed, rfl, (execute_restoring pushes rfl rfl rfl rfl rfl pushed (by decide)).1⟩

end Machine

end Arm32
