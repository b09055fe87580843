import Arm32.Proofs.Emulation.ControlFlow

/-! Lists of registers in memory. Whichever way the addresses go, the list lies there in ascending order, and the base
moves by the size of the block. -/

namespace Arm32

open Memory (covers)
open Memory.Image (wordAddress HoldsWords ChangesOnly)

/-- An image holds one list of words at an address, for any length. -/
theorem Memory.Image.HoldsWords.unique {image : Memory.Image} {address : Word} {first second : List Word}
    (holds : image.HoldsWords address first) (holdsToo : image.HoldsWords address second)
    (same : first.length = second.length) : first = second := by
  refine List.ext_getElem same ?_
  intro index below belowToo
  exact Except.ok.inj ((holds index below).symm.trans (holdsToo index belowToo))

theorem Memory.Image.HoldsWords.access {image : Memory.Image} {address : Word} {values : List Word}
    (holds : image.HoldsWords address values) {index : Nat} (below : index < values.length) :
    image.requireAccess .word (wordAddress address index) = .ok () := by
  have loads := holds index below
  cases access : image.requireAccess .word (wordAddress address index) with
  | error fault => simp [Memory.Image.loadWord, access, bind, Except.bind] at loads
  | ok _ => rfl

theorem Direction.apply_apply (direction : Direction) (base first second : Word) :
    direction.apply (direction.apply base first) second = direction.apply base (first + second) := by
  cases direction <;> simp only [apply] <;> bv_omega

/-! ### Blocks in terms of their words -/

namespace BlockTransfer

variable (fields : BlockTransfer) {index : Nat}

theorem place_place (within : index < fields.registers.length) : fields.place (fields.place index) = index := by
  cases direction : fields.mode.direction <;> simp only [place, direction]
  omega

/-- The order puts each register of the list at its place. -/
theorem order_getElem?_place (within : index < fields.registers.length) :
    fields.order[fields.place index]? = fields.registers[index]? := by
  cases direction : fields.mode.direction with
  | up => simp only [order, place, direction]
  | down =>
      have inside := fields.place_lt within
      have again := fields.place_place within
      simp only [place, direction] at inside again
      simp only [order, place, direction, List.getElem?_reverse inside, again]

/-- The base that is written back: above a block that goes up, and below one that goes down. -/
def movedBase (base : Word) : Word :=
  fields.mode.direction.apply base (BitVec.ofNat 32 (4 * fields.registers.length))

def writtenBack (before : Machine) : Machine :=
  if fields.mode.writeBack then before.write fields.rn (fields.movedBase (before.read fields.rn)) else before

/-- The listed registers have become the words of the block. A loaded base wins over the one to be written back. -/
structure Loaded (before after : Machine) : Prop where
  words : before.memory.HoldsWords (fields.lowest (before.read fields.rn)) (fields.registers.map after.read)
  kept : ∀ reg, fields.lists reg = false → after.read reg = (fields.writtenBack before).read reg
  others : after = { before with registers := after.registers }

/-- The words of the block have become the listed registers. -/
structure Stored (before after : Machine) : Prop where
  words : after.memory.HoldsWords (fields.lowest (before.read fields.rn)) (fields.registers.map before.read)
  kept : ChangesOnly
    (fun address => covers (fields.lowest (before.read fields.rn)) (4 * fields.registers.length) address = true)
    before.memory after.memory
  others : after = { fields.writtenBack before with memory := after.memory }

/-- Each word of the block can be accessed. -/
def IsAccessible (machine : Machine) : Prop :=
  ∀ index < fields.registers.length,
    machine.memory.requireAccess .word (wordAddress (fields.lowest (machine.read fields.rn)) index) = .ok ()

def Transferred (before after : Machine) : Prop :=
  match fields.transfer with
  | .load => fields.Loaded before after
  | .store => fields.Stored before after

theorem holdsWords_of_order {image : Memory.Image} {base : Word} {values : Reg → Word}
    (found : ∀ index reg, fields.order[index]? = some reg →
      image.loadWord (Machine.blockAddress fields.mode base index) = .ok (values reg)) :
    image.HoldsWords (fields.lowest base) (fields.registers.map values) := by
  intro index below
  rw [List.length_map] at below
  have listed : fields.order[fields.place index]? = some fields.registers[index] := by
    rw [fields.order_getElem?_place below, List.getElem?_eq_getElem below]
  have word := found (fields.place index) _ listed
  rw [fields.blockAddress_eq_wordAddress base (fields.place_lt below), fields.place_place below] at word
  rw [word, List.getElem_map]

end BlockTransfer

namespace Machine

variable {machine after : Machine} {address value : Word} {mode : Addressing} {regs : List Reg}

theorem loadWord_eq_ok_iff : machine.loadWord address = .ok value ↔ machine.memory.loadWord address = .ok value := by
  rw [loadWord]
  cases machine.memory.loadWord address <;> simp [Except.mapError]

theorem storeWord_eq_ok_iff :
    machine.storeWord address value = .ok after ↔
      ∃ memory, machine.memory.storeWord address value = .ok memory ∧ after = { machine with memory } := by
  rw [storeWord]
  cases machine.memory.storeWord address value <;> simp [withMemory, eq_comm]

/-! ### Register after register -/

theorem blockStep_snd (mode : Addressing) (address : Word) :
    (blockStep mode address).2 = mode.direction.apply address 4 := by
  cases indexing : mode.indexing <;> simp only [blockStep, indexing]

/-- The address that a block ends at, seen from its second register. -/
theorem apply_blockStep (mode : Addressing) (address : Word) (length : Nat) :
    mode.direction.apply (blockStep mode address).2 (BitVec.ofNat 32 (4 * length)) =
      mode.direction.apply address (BitVec.ofNat 32 (4 * (length + 1))) := by
  rw [blockStep_snd, Direction.apply_apply]
  congr 1
  bv_omega

theorem blockAddress_succ_ne (mode : Addressing) (address : Word) {index : Nat} (bound : 4 * (index + 1) < Word.bound) :
    blockAddress mode address (index + 1) ≠ blockAddress mode address 0 := by
  simp only [Word.bound] at bound
  cases direction : mode.direction <;> cases indexing : mode.indexing <;>
    simp only [blockAddress, blockStep, direction, indexing, Direction.apply] <;> bv_omega

theorem loadBlock_leaves (machine : Machine) (mode : Addressing) (address : Word) (regs : List Reg) :
    Ensures (fun done => done.1 = { machine with registers := done.1.registers } ∧
        done.2 = mode.direction.apply address (BitVec.ofNat 32 (4 * regs.length)))
      (machine.loadBlock mode address regs) := by
  induction regs generalizing machine address with
  | nil =>
      refine .answer ⟨rfl, ?_⟩
      cases mode.direction <;> simp [Direction.apply]
  | cons reg rest ih =>
      refine .bind_any fun value done executed => ?_
      obtain ⟨others, last⟩ := ih (machine.write reg value) (blockStep mode address).2 done executed
      exact ⟨others, last.trans (apply_blockStep mode address rest.length)⟩

theorem storeBlock_leaves (machine : Machine) (mode : Addressing) (address : Word) (regs : List Reg) :
    Ensures (fun done => done.1 = { machine with memory := done.1.memory } ∧
        done.2 = mode.direction.apply address (BitVec.ofNat 32 (4 * regs.length)))
      (machine.storeBlock mode address regs) := by
  induction regs generalizing machine address with
  | nil =>
      refine .answer ⟨rfl, ?_⟩
      cases mode.direction <;> simp [Direction.apply]
  | cons reg rest ih =>
      refine .bind_any fun _ => .bind_found ?_
      intro after put done executed
      obtain ⟨memory, -, rfl⟩ := storeWord_eq_ok_iff.mp put
      obtain ⟨others, last⟩ := ih { machine with memory } (blockStep mode address).2 done executed
      exact ⟨others, last.trans (apply_blockStep mode address rest.length)⟩

/-- Each register of a list is at its address afterwards, since those that are stored after it go elsewhere. -/
theorem storeBlock_stores (machine : Machine) (mode : Addressing) (address : Word) {regs : List Reg}
    (bound : 4 * regs.length ≤ Word.bound) :
    Ensures (fun done => (∀ index reg, regs[index]? = some reg →
          done.1.memory.loadWord (blockAddress mode address index) = .ok (machine.read reg)) ∧
        ∀ other, (∀ index < regs.length, other ≠ blockAddress mode address index) →
          done.1.memory.loadWord other = machine.memory.loadWord other)
      (machine.storeBlock mode address regs) := by
  induction regs generalizing machine address with
  | nil =>
      refine .answer ⟨?_, fun _ _ => rfl⟩
      intro index reg listed
      cases listed
  | cons first rest ih =>
      rw [List.length_cons] at bound
      refine .bind_any fun _ => .bind_found ?_
      intro middle put done executed
      obtain ⟨memory, stored, rfl⟩ := storeWord_eq_ok_iff.mp put
      obtain ⟨words, others⟩ := ih { machine with memory } (blockStep mode address).2 (by omega) done executed
      constructor
      · intro index reg listed
        cases index with
        | zero =>
            cases listed
            have untouched := others (blockAddress mode address 0) fun index below => by
              rw [← blockAddress_succ]
              exact (blockAddress_succ_ne mode address (by omega)).symm
            rw [untouched, blockAddress_zero]
            exact Memory.Image.loadWord_of_storeWord stored
        | succ index =>
            rw [blockAddress_succ]
            exact words index reg listed
      · intro other apart
        have differs := apart 0 (Nat.succ_pos _)
        rw [blockAddress_zero] at differs
        rw [others other fun index below => ?_]
        · exact Memory.Image.loadWord_of_storeWord_of_ne stored differs
        · rw [← blockAddress_succ]
          exact apart (index + 1) (Nat.succ_lt_succ below)

theorem exists_loadBlock (access : ∀ index < regs.length,
      machine.memory.requireAccess .word (blockAddress mode address index) = .ok ()) :
    ∃ done, machine.loadBlock mode address regs = .ok done := by
  induction regs generalizing machine address with
  | nil => exact ⟨_, rfl⟩
  | cons reg rest ih =>
      have first := access 0 (Nat.succ_pos _)
      rw [blockAddress_zero] at first
      have found := loadWord_eq_ok_iff.mpr (Memory.Image.loadWord_of_access first)
      obtain ⟨done, loaded⟩ := @ih (machine.write reg _) (blockStep mode address).2 fun index below => by
        rw [← blockAddress_succ]
        exact access (index + 1) (Nat.succ_lt_succ below)
      refine ⟨done, ?_⟩
      rw [loadBlock, found]
      exact loaded

theorem exists_storeBlock (absent : Reg.pc ∉ regs) (access : ∀ index < regs.length,
      machine.memory.requireAccess .word (blockAddress mode address index) = .ok ()) :
    ∃ done, machine.storeBlock mode address regs = .ok done := by
  induction regs generalizing machine address with
  | nil => exact ⟨_, rfl⟩
  | cons reg rest ih =>
      rw [List.mem_cons, not_or] at absent
      obtain ⟨apart, absent⟩ := absent
      have first := access 0 (Nat.succ_pos _)
      rw [blockAddress_zero] at first
      obtain ⟨memory, stored⟩ : ∃ memory,
          machine.memory.storeWord (blockStep mode address).1 (machine.read reg) = .ok memory :=
        ⟨_, Memory.Image.storeWord_of_access first⟩
      -- A store keeps the shape of memory, and with it all accesses that can be made.
      obtain ⟨done, rested⟩ := @ih { machine with memory } (blockStep mode address).2 absent fun index below => by
        rw [← blockAddress_succ]
        exact (Memory.Image.requireAccess_of_storeWord stored).trans (access (index + 1) (Nat.succ_lt_succ below))
      refine ⟨done, ?_⟩
      rw [storeBlock, require_bind_of_true (by simpa using Ne.symm apart), storeWord_eq_ok_iff.mpr ⟨memory, stored, rfl⟩]
      exact rested

/-! ### Whole blocks -/

variable (machine : Machine) (fields : BlockTransfer)

theorem read_ite_write (back : Bool) (reg other : Reg) (value : Word) :
    (if back then machine.write reg value else machine).read other =
      if back = true ∧ other = reg then value else machine.read other := by
  cases back with
  | false => simp
  | true => simpa using read_write machine reg other value

theorem read_writtenBack (reg : Reg) :
    (fields.writtenBack machine).read reg =
      if fields.mode.writeBack = true ∧ reg = fields.rn then fields.movedBase (machine.read fields.rn)
      else machine.read reg :=
  machine.read_ite_write fields.mode.writeBack fields.rn reg _

theorem loadBlock_loaded :
    Ensures (fun done => fields.Loaded machine
        (if fields.mode.writeBack && !fields.lists fields.rn then done.1.write fields.rn done.2 else done.1))
      (machine.loadBlock fields.mode (machine.read fields.rn) fields.order) := by
  rintro ⟨after, last⟩ executed
  obtain ⟨others, ends⟩ := machine.loadBlock_leaves fields.mode _ fields.order _ executed
  obtain ⟨untouched, words⟩ := machine.loadBlock_loads fields.mode _ fields.nodup_order _ executed
  have moved : last = fields.movedBase (machine.read fields.rn) := by
    rw [BlockTransfer.movedBase, ← fields.length_order]
    exact ends
  refine ⟨?_, ?_, ?_⟩
  · refine fields.holdsWords_of_order ?_
    intro index reg listed
    have inside : fields.lists reg = true := BlockTransfer.mem_order.mp (List.mem_of_getElem? listed)
    rw [read_ite_write, if_neg]
    · exact loadWord_eq_ok_iff.mp (words index reg listed)
    · rintro ⟨back, rfl⟩
      simp [inside] at back
  · intro reg outside
    have unlisted : after.read reg = machine.read reg := untouched reg (by simp [BlockTransfer.mem_order, outside])
    rw [read_ite_write, read_writtenBack]
    -- The base is written back here exactly if it is asked for, since it is not loaded.
    by_cases base : reg = fields.rn
    · subst base
      rw [outside, Bool.not_false, Bool.and_true, unlisted, moved]
    · rw [if_neg (fun both => base both.2), if_neg (fun both => base both.2)]
      exact unlisted
  · cases fields.mode.writeBack && !fields.lists fields.rn with
    | false => exact others
    | true => exact congrArg (·.write fields.rn last) others

theorem storeBlock_changesOnly :
    Ensures (fun done => ChangesOnly
        (fun address => covers (fields.lowest (machine.read fields.rn)) (4 * fields.registers.length) address = true)
        machine.memory done.1.memory)
      (machine.storeBlock fields.mode (machine.read fields.rn) fields.order) := by
  let allowed : Footprint :=
    ⟨fun _ => False, fun address => covers (fields.lowest (machine.read fields.rn)) (4 * fields.registers.length) address,
      0, False, 0, False⟩
  have covered : ∀ index < fields.order.length, ∀ other,
      covers (blockAddress fields.mode (machine.read fields.rn) index) 4 other = true → allowed.bytes other := by
    intro index below other inside
    rw [fields.length_order] at below
    exact fields.covers_of_blockAddress below inside
  exact fun done executed => (storeBlock_within (.refl allowed machine) fields.mode _ covered done executed).memory

theorem storeBlock_stored :
    Ensures (fun done => fields.Stored machine
        (if fields.mode.writeBack then done.1.write fields.rn done.2 else done.1))
      (machine.storeBlock fields.mode (machine.read fields.rn) fields.order) := by
  rintro ⟨after, last⟩ executed
  obtain ⟨others, ends⟩ := machine.storeBlock_leaves fields.mode _ fields.order _ executed
  have few : 4 * fields.order.length ≤ Word.bound := by
    have bound := fields.length_registers_le
    rw [fields.length_order, Word.bound]
    omega
  have words := (machine.storeBlock_stores fields.mode _ few _ executed).1
  have kept := machine.storeBlock_changesOnly fields _ executed
  have moved : last = fields.movedBase (machine.read fields.rn) := by
    rw [BlockTransfer.movedBase, ← fields.length_order]
    exact ends
  cases back : fields.mode.writeBack with
  | false =>
      refine ⟨fields.holdsWords_of_order words, kept, ?_⟩
      rw [BlockTransfer.writtenBack, back]
      exact others
  | true =>
      refine ⟨fields.holdsWords_of_order words, kept, ?_⟩
      rw [BlockTransfer.writtenBack, back, ← moved]
      exact congrArg (·.write fields.rn last) others

theorem blockTransfer_transferred :
    Ensures (fun done => fields.Transferred machine done.1) (machine.blockTransfer fields) := by
  refine .bind_any fun _ => .bind_any fun _ => ?_
  unfold BlockTransfer.Transferred
  cases fields.transfer with
  | load => exact (machine.loadBlock_loaded fields).bind fun done loaded => .pure loaded
  | store =>
      refine (machine.storeBlock_stored fields).bind ?_
      rintro ⟨after, last⟩ stored
      cases back : fields.mode.writeBack with
      | false =>
          rw [back] at stored
          exact .pure stored
      | true =>
          rw [back] at stored
          exact .bind_any fun _ => .pure stored

theorem accessible_of_transferred {machine after : Machine} {fields : BlockTransfer}
    (transferred : fields.Transferred machine after) : fields.IsAccessible machine := by
  intro index below
  unfold BlockTransfer.Transferred at transferred
  cases transfer : fields.transfer with
  | load =>
      rw [transfer] at transferred
      exact transferred.words.access (by simpa using below)
  | store =>
      rw [transfer] at transferred
      rw [← Memory.Image.requireAccess_congr transferred.kept.base transferred.kept.size]
      exact transferred.words.access (by simpa using below)

theorem exists_blockTransfer (permitted : fields.isForbidden = false) (accessible : fields.IsAccessible machine) :
    ∃ done, machine.blockTransfer fields = .ok done := by
  simp only [BlockTransfer.isForbidden, Bool.or_eq_false_iff] at permitted
  obtain ⟨⟨privileged, base⟩, stored⟩ := permitted
  have access : ∀ index < fields.order.length,
      machine.memory.requireAccess .word (blockAddress fields.mode (machine.read fields.rn) index) = .ok () := by
    intro index below
    rw [fields.length_order] at below
    rw [fields.blockAddress_eq_wordAddress _ below]
    exact accessible _ (fields.place_lt below)
  rw [blockTransfer, require_bind_of_true (by simpa using privileged), require_bind_of_true (by simpa using base)]
  cases transfer : fields.transfer with
  | load =>
      obtain ⟨done, loaded⟩ := exists_loadBlock access
      exact ⟨_, congrArg (· >>= _) loaded⟩
  | store =>
      simp only [transfer, BEq.rfl, Bool.true_and, Bool.or_eq_false_iff] at stored
      have absent : Reg.pc ∉ fields.order := by simp [BlockTransfer.mem_order, stored.1]
      obtain ⟨done, put⟩ := exists_storeBlock absent access
      show ∃ done, (machine.storeBlock fields.mode (machine.read fields.rn) fields.order >>= _) = _
      rw [put]
      cases back : fields.mode.writeBack with
      | false => exact ⟨_, rfl⟩
      | true =>
          have kept : (!fields.lists fields.rn) = true := by simpa [back] using stored.2
          exact ⟨_, require_bind_of_true kept⟩

/-- A list of registers is moved exactly if the instruction keeps its rules and memory has all the words. -/
theorem exists_blockTransfer_iff :
    (∃ done, machine.blockTransfer fields = .ok done) ↔ fields.isForbidden = false ∧ fields.IsAccessible machine := by
  refine ⟨?_, fun ⟨permitted, accessible⟩ => machine.exists_blockTransfer fields permitted accessible⟩
  rintro ⟨done, executed⟩
  refine ⟨?_, accessible_of_transferred (machine.blockTransfer_transferred fields done executed)⟩
  refine Bool.eq_false_iff.mpr fun forbidden => ?_
  exact exists_ok_iff.mp ⟨done, executed⟩ (blockTransfer_refused forbidden)

end Machine

/-- An instruction on a list of registers is carried out exactly if it keeps its rules and memory has all words of the
block. Then the words, in ascending order, and the listed registers have become the same. -/
theorem Machine.execute_blockTransfer {machine : Machine} {word : Word} {fields : BlockTransfer}
    (decoded : Instruction.decode word = .blockTransfer fields)
    (holds : machine.status.holds (Condition.ofWord word) = true) :
    ((∃ done, machine.execute word = .ok done) ↔ fields.isForbidden = false ∧ fields.IsAccessible machine) ∧
      ∀ after flow, machine.execute word = .ok (after, flow) → fields.Transferred machine after := by
  rw [execute_of_holds holds, decoded]
  refine ⟨machine.exists_blockTransfer_iff fields, ?_⟩
  intro after flow executed
  exact machine.blockTransfer_transferred fields (after, flow) executed

/-- Three words in memory, and the address of the highest of them in register 1. -/
def Machine.aboveWords : Machine :=
  (ofImage .arm7
    { base := 0, size := 12, cells := (Memory.Cells.all 0).setFrom 0 [0x10, 0, 0, 0, 0x20, 0, 0, 0, 0x30, 0, 0, 0]
      order := .little, fits := by decide }).write 1 8

/-- Downwards into registers 0 and 1 and the program counter. Register 1 is the base, and it keeps what is loaded. -/
theorem Machine.execute_blockTransfer_descending :
    ∃ after, aboveWords.execute 0xE8318003 = .ok (after, .branched) ∧
      (Instruction.blockTransferOf 0xE8318003).Loaded aboveWords after ∧
      [0, 1, Reg.pc].map after.read = [0x10, 0x20, 0x30] := by
  have decoded : Instruction.decode 0xE8318003 = .blockTransfer (Instruction.blockTransferOf 0xE8318003) := rfl
  have executed : aboveWords.execute 0xE8318003 = .ok (_, .branched) := rfl
  exact ⟨_, executed, (execute_blockTransfer decoded rfl).2 _ _ executed, rfl⟩

end Arm32
