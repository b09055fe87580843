import Arm32.Proofs.Agreement
import Arm32.Proofs.Frame.Footprint
import Arm32.Proofs.Safety.Vfp
import Arm32.Proofs.Transfer.Block

/-! Slots that a list of floating-point registers takes to memory and back. A load covers up what its slots held, and a
store lays it open; every other slot goes through untouched and unseen. -/

namespace Arm32

namespace Vfp

variable {registers : Registers} {slot other : Slot} {number first count : Nat}

theorem Slot.number?_of_lt (bound : number < 32) : Slot.number? number = .ok (BitVec.ofNat 5 number) := by
  rw [number?, dif_pos bound, BitVec.ofNatLT_eq_ofNat]

theorem Slot.toNat_of_number? (found : Slot.number? number = .ok slot) : slot.toNat = number := by
  unfold number? at found
  split at found
  · cases found
    rfl
  · cases found

namespace Registers

theorem read_write (registers : Registers) (slot other : Slot) (value : Word) :
    (registers.write slot value).read other = if other = slot then value else registers.read other := by
  have within : other.toNat < 32 := other.isLt
  have cell (slots : Vector Word 32) : slots.get other.toFin = slots[other.toNat] := rfl
  rw [read, read, write, cell, cell, Vector.getElem_set]
  simp only [← BitVec.toNat_inj, eq_comm]

theorem write_write (slot : Slot) (value second : Word) :
    (registers.write slot value).write slot second = registers.write slot second := by
  simp [write]

theorem write_comm (apart : slot ≠ other) (value second : Word) :
    (registers.write slot value).write other second = (registers.write other second).write slot value := by
  have places : slot.toNat ≠ other.toNat := fun same => apart (BitVec.eq_of_toNat_eq same)
  rw [write, write, Vector.set_comm _ _ places]
  rfl

/-- The words of some slots in a row. -/
def slotsFrom (registers : Registers) (first count : Nat) : List Word :=
  (List.range' first count).map fun number => registers.read (BitVec.ofNat 5 number)

theorem length_slotsFrom : (registers.slotsFrom first count).length = count := by simp [slotsFrom]

theorem slotsFrom_succ :
    registers.slotsFrom first (count + 1) =
      registers.read (BitVec.ofNat 5 first) :: registers.slotsFrom (first + 1) count := by
  simp [slotsFrom, List.range'_succ]

theorem read_of_slotsFrom {others : Registers} (inside : first ≤ slot.toNat ∧ slot.toNat < first + count)
    (same : registers.slotsFrom first count = others.slotsFrom first count) : registers.read slot = others.read slot := by
  have member : slot.toNat ∈ List.range' first count := List.mem_range'_1.mpr inside
  simpa using List.map_inj_left.mp same slot.toNat member

end Registers

/-- The slots of a list, from its first on, one for each word. -/
def LoadStore.Spans (fields : LoadStore) (slot : Slot) : Prop :=
  fields.firstSlot ≤ slot.toNat ∧ slot.toNat < fields.firstSlot + fields.offset.toNat

end Vfp

namespace Machine

open Vfp (Slot)

variable {machine : Machine} {transfer : Transfer} {slot : Slot} {value address : Word} {number first count : Nat}

/-- The same machine with another word in one slot. -/
def withSlot (machine : Machine) (slot : Slot) (value : Word) : Machine :=
  { machine with vfp := machine.vfp.write slot value }

theorem read_withSlot (machine : Machine) (slot : Slot) (value : Word) :
    (machine.withSlot slot value).vfp.read slot = value :=
  (machine.vfp.read_write slot slot value).trans (if_pos rfl)

theorem withSlot_withSlot (machine : Machine) (slot : Slot) (value second : Word) :
    (machine.withSlot slot value).withSlot slot second = machine.withSlot slot second := by
  simp only [withSlot, Vfp.Registers.write_write]

theorem withSlot_comm (machine : Machine) {slot other : Slot} (apart : slot ≠ other) (value second : Word) :
    (machine.withSlot slot value).withSlot other second = (machine.withSlot other second).withSlot slot value := by
  simp only [withSlot, Vfp.Registers.write_comm apart]

/-- The machines differ in one slot at most, where the first has the given word. -/
def ApartIn (slot : Slot) (value : Word) (changed machine : Machine) : Prop := changed = machine.withSlot slot value

theorem withMemory_apart {result : Except Memory.Fault Memory.Image} :
    Agree (ApartIn slot value) ((machine.withSlot slot value).withMemory result) (machine.withMemory result) := by
  cases result with
  | error fault => exact .errors _
  | ok memory => exact .answers rfl

/-! ### Slot after slot -/

theorem transferSlot_apart (outside : slot.toNat ≠ number) :
    Agree (ApartIn slot value) ((machine.withSlot slot value).transferSlot transfer address number)
      (machine.transferSlot transfer address number) := by
  have distinct {target : Slot} (found : Slot.number? number = .ok target) : slot ≠ target := by
    rintro rfl
    exact outside (Slot.toNat_of_number? found)
  cases transfer with
  | load =>
      refine .bind_of_eq rfl fun word => ?_
      cases found : Slot.number? number with
      | error refusal => exact .errors refusal
      | ok target => exact .answers (withSlot_comm machine (distinct found) value word)
  | store =>
      unfold transferSlot
      cases found : Slot.number? number with
      | error refusal => exact .errors refusal
      | ok target =>
          have same : (machine.withSlot slot value).vfp.read target = machine.vfp.read target :=
            (machine.vfp.read_write slot target value).trans (if_neg (distinct found).symm)
          show Agree _ ((machine.withSlot slot value).storeWord address ((machine.withSlot slot value).vfp.read target)) _
          rw [same]
          exact withMemory_apart

theorem transferFrom_apart (outside : slot.toNat < first ∨ first + count ≤ slot.toNat) :
    Agree (ApartIn slot value) ((machine.withSlot slot value).transferFrom transfer address first count)
      (machine.transferFrom transfer address first count) := by
  induction count generalizing machine address first with
  | zero =>
      rw [transferFrom_zero, transferFrom_zero]
      exact .answers rfl
  | succ count ih =>
      rw [transferFrom_succ, transferFrom_succ]
      refine (transferSlot_apart (by omega)).bind ?_
      rintro changed middle rfl
      exact ih (by omega)

theorem loadSlots_withSlot (inside : first ≤ slot.toNat ∧ slot.toNat < first + count) :
    (machine.withSlot slot value).loadSlots address first count = machine.loadSlots address first count := by
  induction count generalizing machine address first with
  | zero => omega
  | succ count ih =>
      refine bind_congr fun word => ?_
      cases found : Slot.number? first with
      | error refusal => rfl
      | ok target =>
          show ((machine.withSlot slot value).withSlot target word).loadSlots _ _ count =
            (machine.withSlot target word).loadSlots _ _ count
          -- What the slot held is written over here, or it goes along to a later write.
          by_cases here : slot = target
          · rw [here, withSlot_withSlot]
          · have later : slot.toNat ≠ first := by
              intro same
              exact here (BitVec.eq_of_toNat_eq (same.trans (Slot.toNat_of_number? found).symm))
            rw [withSlot_comm machine here]
            exact ih (by omega)

theorem storeSlots_eq (fits : first + count ≤ 32) :
    machine.storeSlots address first count =
      machine.withMemory (machine.memory.storeWords address (machine.vfp.slotsFrom first count)) := by
  induction count generalizing machine address first with
  | zero => rfl
  | succ count ih =>
      rw [storeSlots, Slot.number?_of_lt (by omega), Vfp.Registers.slotsFrom_succ, Memory.Image.storeWords]
      show machine.withMemory _ >>= _ = _
      cases machine.memory.storeWord address (machine.vfp.read (BitVec.ofNat 5 first)) with
      | error fault => rfl
      | ok memory =>
          show storeSlots { machine with memory } (address + 4) (first + 1) count = _
          rw [ih (by omega)]
          rfl

/-! ### Lists of registers -/

/-- The base register moves with the list, if it moves at all. -/
def moveBase (machine : Machine) (fields : Vfp.LoadStore) (base : Word) : Except Refusal Machine :=
  let bytes := fields.offset.setWidth 32 * 4
  match fields.mode with
  | .increment => machine.writeBackBase fields.rn (base + bytes)
  | .decrement => machine.writeBackBase fields.rn (base - bytes)
  | _ => .ok machine

theorem vfpLoadStore_of_isMultiple {fields : Vfp.LoadStore} (multiple : fields.mode.isMultiple = true) :
    machine.vfpLoadStore fields =
      machine.transferFrom fields.transfer (fields.start (machine.operand fields.rn prefetch)) fields.firstSlot
        fields.offset.toNat >>= (·.moveBase fields (machine.operand fields.rn prefetch)) := by
  have same (address : Word) (slot : Slot) (count : Nat) :
      machine.transferSlots fields.transfer address slot count =
        machine.transferFrom fields.transfer address slot.toNat count := by
    cases fields.transfer <;> rfl
  unfold vfpLoadStore moveBase
  cases mode : fields.mode with
  | unindexed =>
      simp only [Vfp.LoadStore.start, mode, same, Vfp.LoadStore.firstSlot]
      exact (bind_pure _).symm
  | increment | decrement => simp only [Vfp.LoadStore.start, mode, same, Vfp.LoadStore.firstSlot]
  | positiveOffset | negativeOffset | undefined bits => simp [mode, Vfp.AddressMode.isMultiple] at multiple

theorem moveBase_apart {fields : Vfp.LoadStore} {base : Word} :
    Agree (ApartIn slot value) ((machine.withSlot slot value).moveBase fields base) (machine.moveBase fields base) := by
  unfold moveBase
  cases fields.mode with
  | increment | decrement => exact .require_bind (.answers rfl)
  | _ => exact .answers rfl

theorem moveBase_memory {fields : Vfp.LoadStore} {base : Word} :
    Ensures (fun after => after.memory = machine.memory) (machine.moveBase fields base) := by
  unfold moveBase
  cases fields.mode with
  | increment | decrement => exact .require_bind fun _ => .answer rfl
  | _ => exact .answer rfl

variable {fields : Vfp.LoadStore} {word : Word} {done : Machine × Flow}

theorem vfpLoadStore_apart (multiple : fields.mode.isMultiple = true) (outside : ¬ fields.Spans slot) :
    Agree (ApartIn slot value) ((machine.withSlot slot value).vfpLoadStore fields) (machine.vfpLoadStore fields) := by
  rw [vfpLoadStore_of_isMultiple multiple, vfpLoadStore_of_isMultiple multiple]
  have apart : slot.toNat < fields.firstSlot ∨ fields.firstSlot + fields.offset.toNat ≤ slot.toNat := by
    rw [Vfp.LoadStore.Spans] at outside
    omega
  refine (transferFrom_apart apart).bind ?_
  rintro changed after rfl
  exact moveBase_apart

theorem vfpLoadStore_withSlot (multiple : fields.mode.isMultiple = true) (load : fields.transfer = .load)
    (inside : fields.Spans slot) :
    (machine.withSlot slot value).vfpLoadStore fields = machine.vfpLoadStore fields := by
  rw [vfpLoadStore_of_isMultiple multiple, vfpLoadStore_of_isMultiple multiple, load]
  simp only [transferFrom]
  rw [loadSlots_withSlot inside]
  rfl

theorem vfpLoadStore_holdsWords (multiple : fields.mode.isMultiple = true) (store : fields.transfer = .store)
    (fits : fields.firstSlot + fields.offset.toNat ≤ 32) :
    Ensures (fun after => after.memory.HoldsWords (fields.start (machine.operand fields.rn prefetch))
      (machine.vfp.slotsFrom fields.firstSlot fields.offset.toNat)) (machine.vfpLoadStore fields) := by
  rw [vfpLoadStore_of_isMultiple multiple, store]
  simp only [transferFrom]
  rw [storeSlots_eq fits]
  cases stored : machine.memory.storeWords (fields.start (machine.operand fields.rn prefetch))
      (machine.vfp.slotsFrom fields.firstSlot fields.offset.toNat) with
  | error fault => exact .error _
  | ok memory =>
      have few : 4 * (machine.vfp.slotsFrom fields.firstSlot fields.offset.toNat).length ≤ Word.bound := by
        simp only [Vfp.Registers.length_slotsFrom, Word.bound]
        omega
      intro after moved
      have kept : after.memory = memory := moveBase_memory after moved
      rw [kept]
      exact Memory.Image.holdsWords_of_storeWords few stored

/-! ### What is moved -/

/-- Whatever the slot held, the outcome is the same. -/
def Overwrites (machine : Machine) (word : Word) (slot : Slot) : Prop :=
  ∀ value, (machine.withSlot slot value).execute word = machine.execute word

/-- The memory that an instruction leaves. -/
def memoryAfter (machine : Machine) (word : Word) : Except Refusal Memory.Image :=
  (machine.execute word).map fun done => done.1.memory

/-- What the slot held shows in memory. -/
def Exposes (machine : Machine) (word : Word) (slot : Slot) : Prop :=
  ∃ value, (machine.withSlot slot value).memoryAfter word ≠ machine.memoryAfter word

/-- The slot is loaded, or it is stored. -/
def Moves (machine : Machine) (word : Word) (transfer : Transfer) (slot : Slot) : Prop :=
  match transfer with
  | .load => machine.Overwrites word slot
  | .store => machine.Exposes word slot

theorem execute_withSlot (holds : machine.status.holds (Condition.ofWord word) = true) :
    (machine.withSlot slot value).execute word = (machine.withSlot slot value).perform word (Instruction.decode word) :=
  execute_of_holds holds

theorem execute_apart (decoded : Instruction.decode word = .vfp (.loadStore fields))
    (multiple : fields.mode.isMultiple = true)
    (outside : machine.status.holds (Condition.ofWord word) = true → ¬ fields.Spans slot) :
    Agree (fun changed plain => ApartIn slot value changed.1 plain.1) ((machine.withSlot slot value).execute word)
      (machine.execute word) := by
  cases holds : machine.status.holds (Condition.ofWord word) with
  | false =>
      have idle (machine : Machine) (fails : machine.status.holds (Condition.ofWord word) = false) :
          machine.execute word = .ok (machine, .next) := if_neg (by rw [fails]; exact Bool.false_ne_true)
      rw [idle machine holds, idle (machine.withSlot slot value) holds]
      exact .answers rfl
  | true =>
      rw [execute_of_holds holds, execute_withSlot holds, decoded]
      refine Agree.map (vfpLoadStore_apart multiple (outside holds)) ?_
      exact fun changed plain apart => apart

theorem memoryAfter_holdsWords (decoded : Instruction.decode word = .vfp (.loadStore fields))
    (multiple : fields.mode.isMultiple = true) (store : fields.transfer = .store)
    (fits : fields.firstSlot + fields.offset.toNat ≤ 32) (holds : machine.status.holds (Condition.ofWord word) = true) :
    Ensures (·.HoldsWords (fields.start (machine.operand fields.rn prefetch))
      (machine.vfp.slotsFrom fields.firstSlot fields.offset.toNat)) (machine.memoryAfter word) := by
  have left : machine.memoryAfter word = (machine.vfpLoadStore fields).map (·.memory) := by
    rw [memoryAfter, execute_of_holds holds, decoded]
    show Except.map _ (continuing (machine.vfpLoadStore fields)) = _
    cases machine.vfpLoadStore fields <;> rfl
  rw [left]
  exact (vfpLoadStore_holdsWords multiple store fits).map fun _ held => held

theorem not_moves_of_apart (performed : machine.execute word = .ok done)
    (apart : ∀ value, Agree (fun changed plain => ApartIn slot value changed.1 plain.1)
      ((machine.withSlot slot value).execute word) (machine.execute word)) : ¬ machine.Moves word transfer slot := by
  cases transfer with
  | load =>
      intro covered
      -- The slot keeps whatever it held, so two words in it cannot lead to one outcome.
      obtain ⟨changed, found, related⟩ := (apart (done.1.vfp.read slot + 1)).exists_answer performed
      rw [covered, performed] at found
      cases found
      have kept : done.1.vfp.read slot = done.1.vfp.read slot + 1 := by
        calc done.1.vfp.read slot
          _ = (done.1.withSlot slot (done.1.vfp.read slot + 1)).vfp.read slot := congrArg (·.vfp.read slot) related
          _ = done.1.vfp.read slot + 1 := done.1.read_withSlot slot _
      bv_omega
  | store =>
      rintro ⟨value, shown⟩
      obtain ⟨changed, found, related⟩ := (apart value).exists_answer performed
      apply shown
      rw [memoryAfter, memoryAfter, found, performed]
      exact congrArg (fun after => Except.ok after.memory) related

theorem overwrites_of_inside (decoded : Instruction.decode word = .vfp (.loadStore fields))
    (multiple : fields.mode.isMultiple = true) (load : fields.transfer = .load)
    (holds : machine.status.holds (Condition.ofWord word) = true)
    (inside : fields.Spans slot) :
    machine.Overwrites word slot := by
  intro value
  rw [execute_of_holds holds, execute_withSlot holds, decoded]
  exact congrArg continuing (vfpLoadStore_withSlot multiple load inside)

theorem exposes_of_inside (decoded : Instruction.decode word = .vfp (.loadStore fields))
    (multiple : fields.mode.isMultiple = true) (store : fields.transfer = .store)
    (fits : fields.firstSlot + fields.offset.toNat ≤ 32) (performed : machine.execute word = .ok done)
    (holds : machine.status.holds (Condition.ofWord word) = true)
    (inside : fields.Spans slot) :
    machine.Exposes word slot := by
  let other := machine.withSlot slot (machine.vfp.read slot + 1)
  have otherHolds : other.status.holds (Condition.ofWord word) = true := holds
  refine ⟨machine.vfp.read slot + 1, fun same => ?_⟩
  have left : machine.memoryAfter word = .ok done.1.memory := by
    rw [memoryAfter, performed]
    rfl
  -- One memory holds one row of words at an address, and the two machines have different rows.
  have plain := memoryAfter_holdsWords decoded multiple store fits holds done.1.memory left
  have changed := memoryAfter_holdsWords decoded multiple store fits otherHolds done.1.memory (same.trans left)
  have rows : other.vfp.slotsFrom fields.firstSlot fields.offset.toNat =
      machine.vfp.slotsFrom fields.firstSlot fields.offset.toNat :=
    changed.unique plain (by rw [Vfp.Registers.length_slotsFrom, Vfp.Registers.length_slotsFrom])
  have kept : machine.vfp.read slot + 1 = machine.vfp.read slot := by
    calc machine.vfp.read slot + 1
      _ = other.vfp.read slot := (machine.read_withSlot slot _).symm
      _ = machine.vfp.read slot := Vfp.Registers.read_of_slotsFrom inside rows
  bv_omega

/-- A list takes all its slots to memory or from it, and no others. -/
theorem moves_iff (decoded : Instruction.decode word = .vfp (.loadStore fields))
    (multiple : fields.mode.isMultiple = true) (fits : fields.firstSlot + fields.offset.toNat ≤ 32)
    (performed : machine.execute word = .ok done) :
    machine.Moves word fields.transfer slot ↔
      machine.status.holds (Condition.ofWord word) = true ∧ fields.Spans slot := by
  constructor
  · intro moves
    by_contra outside
    refine not_moves_of_apart performed (fun value => execute_apart decoded multiple ?_) moves
    exact fun holds inside => outside ⟨holds, inside⟩
  · rintro ⟨holds, inside⟩
    cases transfer : fields.transfer with
    | load => exact overwrites_of_inside decoded multiple transfer holds inside
    | store => exact exposes_of_inside decoded multiple transfer fits performed holds inside

end Machine
end Arm32
