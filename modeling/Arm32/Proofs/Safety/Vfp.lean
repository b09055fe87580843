import Arm32.Execution.Vfp
import Arm32.Proofs.Safety.Decoding
import Arm32.Proofs.Safety.Transfer

/-! Floating-point instructions with checks. Slots are looked up by number. The numbers that an operand takes in a short
vector stay inside its bank, so only a list of slots can run past the last one, and that is refused. An operation
reaches the function for its kind and no other. -/

namespace Arm32

open Bits (checkedAdd checkedMul)

namespace Vfp

/-! ### Slots -/

def Slot.index (slot : Slot) : Index := slot.setWidth 64

/-- The lower slot of the double that covers a slot. -/
def lowIndex (index : Index) : Index := index &&& ~~~1

namespace Registers

variable {registers : Registers}

def checkedRead (registers : Registers) (index : Index) : Checked Refusal Word := do
  let slot ← Slot.number? index.toNat
  return registers.read slot

def checkedWrite (registers : Registers) (index : Index) (value : Word) : Checked Refusal Registers := do
  let slot ← Slot.number? index.toNat
  return registers.write slot value

def checkedReadDouble (registers : Registers) (index : Index) : Checked Refusal (BitVec 64) := do
  let next ← checkedAdd (lowIndex index) 1
  let high ← registers.checkedRead next
  let low ← registers.checkedRead (lowIndex index)
  return high ++ low

def checkedWriteDouble (registers : Registers) (index : Index) (value : BitVec 64) : Checked Refusal Registers := do
  let registers ← registers.checkedWrite (lowIndex index) (value.extractLsb' 0 32)
  let next ← checkedAdd (lowIndex index) 1
  registers.checkedWrite next (value.extractLsb' 32 32)

def checkedGet (registers : Registers) (precision : Precision) (index : Index) : Checked Refusal precision.Bits :=
  match precision with
  | .single => registers.checkedRead index
  | .double => registers.checkedReadDouble index

def checkedPut (registers : Registers) (precision : Precision) (index : Index) (value : precision.Bits) :
    Checked Refusal Registers :=
  match precision with
  | .single => registers.checkedWrite index value
  | .double => registers.checkedWriteDouble index value

theorem number?_index (slot : Slot) : Slot.number? slot.index.toNat = .ok slot := by
  have below : slot.toNat < 32 := slot.isLt
  have same : slot.index.toNat = slot.toNat := BitVec.toNat_setWidth_of_le (by decide)
  simp [Slot.number?, same, below]

theorem lowIndex_index (slot : Slot) : lowIndex slot.index = slot.lowHalf.index := by
  revert slot
  decide

theorem checkedAdd_lowHalf (slot : Slot) : checkedAdd slot.lowHalf.index 1#64 = some slot.highHalf.index := by
  revert slot
  decide

@[simp] theorem checkedRead_eq (slot : Slot) : registers.checkedRead slot.index = pure (registers.read slot) := by
  simp [checkedRead, number?_index]

@[simp] theorem checkedWrite_eq (slot : Slot) (value : Word) :
    registers.checkedWrite slot.index value = pure (registers.write slot value) := by
  simp [checkedWrite, number?_index]

@[simp] theorem checkedGet_eq (precision : Precision) (slot : Slot) :
    registers.checkedGet precision slot.index = pure (registers.get precision slot) := by
  cases precision with
  | single => exact checkedRead_eq slot
  | double =>
      simp [checkedGet, get, checkedReadDouble, readDouble, lowIndex_index, checkedAdd_lowHalf]
      rfl

@[simp] theorem checkedPut_eq (precision : Precision) (slot : Slot) (value : precision.Bits) :
    registers.checkedPut precision slot.index value = pure (registers.put precision slot value) := by
  cases precision with
  | single => exact checkedWrite_eq slot value
  | double => simp [checkedPut, put, checkedWriteDouble, writeDouble, lowIndex_index, checkedAdd_lowHalf]

end Registers

/-! ### Short vectors -/

def checkedNextInBank (index step : Index) : Option Index := do
  let moved ← checkedAdd index step
  return (index &&& ~~~7) ||| (moved &&& 7)

/-- The numbers of the operands of one element. -/
structure Indices where
  fd : Index
  fn : Index
  fm : Index

def Operands.indices (operands : Operands) : Indices :=
  { fd := operands.fd.index, fn := operands.fn.index, fm := operands.fm.index }

/-- The operands of the next element. One below the second bank is shared by all elements. -/
def Indices.checkedNext (indices : Indices) (step : Index) (extension : Bool) : Option Indices := do
  let fd ← checkedNextInBank indices.fd step
  let fn ← if extension then some indices.fn else checkedNextInBank indices.fn step
  let fm ← if 8 ≤ indices.fm.toNat then checkedNextInBank indices.fm step else some indices.fm
  return { fd, fn, fm }

/-- The operands of each element. Those of the next one are found before it is known whether there is one. -/
def checkedVector (length : Nat) (step : Index) (extension : Bool) (first : Indices) : Option (List Indices) :=
  match length with
  | 0 => some []
  | length + 1 => do
    let next ← first.checkedNext step extension
    let rest ← checkedVector length step extension next
    return first :: rest

theorem checkedNextInBank_eq {step : Nat} (small : step ≤ 4) (slot : Slot) :
    checkedNextInBank slot.index (BitVec.ofNat 64 step) = some (slot.nextInBank step).index := by
  -- No step goes further than two doubles, so there are few enough cases to go through.
  have all : ∀ slot : Slot, ∀ step : Fin 5,
      checkedNextInBank slot.index (BitVec.ofNat 64 step) = some (slot.nextInBank step).index := by decide
  exact all slot ⟨step, by omega⟩

theorem inScalarBank_eq (slot : Slot) : slot.inScalarBank = !decide (8 ≤ slot.index.toNat) := by
  revert slot
  decide

theorem checkedNext_eq {step : Nat} (small : step ≤ 4) (operands : Operands) (extension : Bool) :
    operands.indices.checkedNext (BitVec.ofNat 64 step) extension = some (operands.next step extension).indices := by
  have moves (slot : Slot) := checkedNextInBank_eq small slot
  cases extension <;> by_cases vector : 8 ≤ operands.fm.index.toNat <;>
    simp [Indices.checkedNext, Operands.next, Operands.indices, inScalarBank_eq, vector, moves]

theorem checkedVector_eq {length step : Nat} (small : step ≤ 4) (extension : Bool) (first : Operands) :
    checkedVector length (BitVec.ofNat 64 step) extension first.indices =
      some ((vectorOperands length step extension first).map Operands.indices) := by
  induction length generalizing first with
  | zero => rfl
  | succ length ih => simp [checkedVector, vectorOperands, checkedNext_eq small, ih]

namespace Registers

variable {registers : Registers}

def checkedVectorLength (registers : Registers) : Option Index := do
  let field ← Bits.field? registers.fpscr 16 18
  checkedAdd (field.setWidth 64) 1

def checkedVectorStride (registers : Registers) : Option Index := do
  let field ← Bits.field? registers.fpscr 20 21
  return if field = 0b11 then 2 else 1

def checkedElementStep (registers : Registers) (precision : Precision) : Option Index := do
  let stride ← registers.checkedVectorStride
  checkedMul stride (BitVec.ofNat 64 precision.words)

theorem checkedVectorLength_eq :
    registers.checkedVectorLength = some (BitVec.ofNat 64 registers.vectorLength) := by
  have field : Bits.field? registers.fpscr 16 18 = some ((registers.fpscr.extractLsb' 16 3).setWidth 32) :=
    Bits.field?_eq 3 rfl (by decide)
  rw [checkedVectorLength, field, vectorLength]
  generalize registers.fpscr.extractLsb' 16 3 = length
  revert length
  decide

theorem vectorLength_lt (registers : Registers) : registers.vectorLength < 2 ^ 64 := by
  have below : (registers.fpscr.extractLsb' 16 3).toNat < 8 := (registers.fpscr.extractLsb' 16 3).isLt
  unfold vectorLength
  omega

theorem elementStep_le (registers : Registers) (precision : Precision) : registers.elementStep precision ≤ 4 := by
  unfold elementStep vectorStride
  cases precision <;> split <;> decide

theorem checkedElementStep_eq (precision : Precision) :
    registers.checkedElementStep precision = some (BitVec.ofNat 64 (registers.elementStep precision)) := by
  have field : Bits.field? registers.fpscr 20 21 = some ((registers.fpscr.extractLsb' 20 2).setWidth 32) :=
    Bits.field?_eq 2 rfl (by decide)
  rw [checkedElementStep, checkedVectorStride, field, elementStep, vectorStride]
  generalize registers.fpscr.extractLsb' 20 2 = stride
  cases precision <;> revert stride <;> decide

end Registers

/-! ### Operations -/

/-- The arithmetic of one element. Other operations do not come here. -/
def DataOp.checkedCompute {precision : Precision} (op : DataOp) (d n m : precision.Bits) : Option precision.Bits :=
  match op with
  | arithmetic op => some (op.compute d n m)
  | extension (.unary op) => some (op.compute m)
  | extension _ | undefined _ => none

namespace Registers

variable {registers : Registers}

def checkedArithmetic (registers : Registers) (precision : Precision) (op : DataOp) (operands : Indices) :
    Checked Refusal Registers := do
  let d ← registers.checkedGet precision operands.fd
  let n ← registers.checkedGet precision operands.fn
  let m ← registers.checkedGet precision operands.fm
  let result ← op.checkedCompute d n m
  registers.checkedPut precision operands.fd result

/-- Comparisons and conversions. Other operations do not come here. -/
def checkedScalar (registers : Registers) (precision : Precision) (op : ExtensionOp) (fd fm : Index) :
    Checked Refusal Registers :=
  match op with
  | .scalar .fcmp | .scalar .fcmpe => do
    let m ← registers.checkedGet precision fm
    let d ← registers.checkedGet precision fd
    return registers.setCompareFlags (compareBits d m)
  | .scalar .fcmpz | .scalar .fcmpez => do
    let d ← registers.checkedGet precision fd
    return registers.setCompareFlags (compareBits d 0)
  | .scalar .fcvt =>
    match precision with
    | .single => do
      let m ← registers.checkedGet .single fm
      registers.checkedPut .double fd (Precision.Bits.ofValue (Conversion.reround Precision.double.format m.value))
    | .double => do
      let m ← registers.checkedGet .double fm
      registers.checkedPut .single fd (Precision.Bits.ofValue (Conversion.reround Precision.single.format m.value))
  | .scalar .fuito => do
    let number ← registers.checkedRead fm
    registers.checkedPut precision fd (Conversion.ofInt number.toNat)
  | .scalar .fsito => do
    let number ← registers.checkedRead fm
    registers.checkedPut precision fd (Conversion.ofInt number.toInt)
  | .scalar .ftoui => do
    let m ← registers.checkedGet precision fm
    registers.checkedWrite fd (Conversion.toUnsigned Conversion.nearest m.value)
  | .scalar .ftouiz => do
    let m ← registers.checkedGet precision fm
    registers.checkedWrite fd (Conversion.toUnsigned Conversion.truncated m.value)
  | .scalar .ftosi => do
    let m ← registers.checkedGet precision fm
    registers.checkedWrite fd (Conversion.toSigned Conversion.nearest m.value)
  | .scalar .ftosiz => do
    let m ← registers.checkedGet precision fm
    registers.checkedWrite fd (Conversion.toSigned Conversion.truncated m.value)
  | .unary _ | .undefined _ => (none : Option Registers)

def checkedElement (registers : Registers) (precision : Precision) (op : DataOp) (extension : Option ExtensionOp)
    (operands : Indices) : Checked Refusal Registers :=
  match extension with
  | some extensionOp =>
    if extensionOp.isVector then registers.checkedArithmetic precision op operands
    else registers.checkedScalar precision extensionOp operands.fd operands.fm
  | none => registers.checkedArithmetic precision op operands

/-- The extension that an operation is, if it is one. Undefined operations are refused. -/
def extensionOf : DataOp → Except Refusal (Option ExtensionOp)
  | .undefined opcode => .error (.undefinedVfpOpcode opcode)
  | .extension (.undefined selector) => .error (.undefinedVfpExtension selector)
  | .extension op => .ok (some op)
  | .arithmetic _ => .ok none

def checkedElements (registers : Registers) (fields : DataProcessing) (extension : Option ExtensionOp)
    (length : Index) : Checked Refusal Registers := do
  let step ← registers.checkedElementStep fields.precision
  let first : Indices := { fd := fields.fd.index, fn := fields.fn.index, fm := fields.fm.index }
  let elements ← checkedVector length.toNat step extension.isSome first
  elements.foldlM (fun registers operands => registers.checkedElement fields.precision fields.op extension operands)
    registers

/-- How many elements there are. Only an operation that takes part in short vectors has more than one. -/
def checkedCount (registers : Registers) (vector : Bool) (fd : Index) : Option Index :=
  if vector && 8 ≤ fd.toNat then registers.checkedVectorLength else some 1

def checkedProcess (registers : Registers) (fields : DataProcessing) : Checked Refusal Registers := do
  let extension ← extensionOf fields.op
  let length ← registers.checkedCount (extension.all ExtensionOp.isVector) fields.fd.index
  registers.checkedElements fields extension length

theorem checkedScalar_eq (precision : Precision) (op : ScalarOp) (fd fm : Slot) :
    registers.checkedScalar precision (.scalar op) fd.index fm.index =
      pure (registers.applyScalar precision op fd fm) := by
  cases op with
  | fcvt => cases precision <;> simp [checkedScalar, applyScalar]
  | fcmp | fcmpe | fcmpz | fcmpez => simp [checkedScalar, applyScalar]
  | fuito | fsito | ftoui | ftouiz | ftosi | ftosiz => simp [checkedScalar, applyScalar]

example (registers : Registers) : registers.checkedScalar .single (.unary .fabs) 0 0 = none := rfl

theorem checkedCount_vector (registers : Registers) (fd : Slot) :
    registers.checkedCount true fd.index = some (BitVec.ofNat 64 (registers.elements fd)) := by
  rw [checkedCount, elements, inScalarBank_eq]
  by_cases vector : 8 ≤ fd.index.toNat
  · simp [vector, checkedVectorLength_eq]
  · simp [vector]

theorem elements_lt (registers : Registers) (fd : Slot) : registers.elements fd < 2 ^ 64 := by
  have length := vectorLength_lt registers
  unfold elements
  split <;> omega

theorem foldlM_elements {precision : Precision} {op : DataOp} {extension : Option ExtensionOp}
    {apply : Registers → Operands → Registers} (elements : List Operands)
    (applied : ∀ registers operands,
      registers.checkedElement precision op extension (Operands.indices operands) = pure (apply registers operands)) :
    (elements.map Operands.indices).foldlM
        (fun registers operands => registers.checkedElement precision op extension operands) registers =
      (pure (elements.foldl apply registers) : Checked Refusal Registers) := by
  induction elements generalizing registers with
  | nil => rfl
  | cons operands rest ih =>
      rw [List.map_cons, List.foldlM_cons, applied, pure_bind, ih, List.foldl_cons]

theorem checkedElements_eq {fields : DataProcessing} {extension : Option ExtensionOp} {length : Nat}
    {apply : Registers → Operands → Registers} (counted : length < 2 ^ 64)
    (applied : ∀ registers operands,
      registers.checkedElement fields.precision fields.op extension (Operands.indices operands) =
        pure (apply registers operands)) :
    registers.checkedElements fields extension (BitVec.ofNat 64 length) =
      pure ((vectorOperands length (registers.elementStep fields.precision) extension.isSome
        { fd := fields.fd, fn := fields.fn, fm := fields.fm }).foldl apply registers) := by
  have total : (BitVec.ofNat 64 length).toNat = length := Nat.mod_eq_of_lt counted
  have vector := @checkedVector_eq length _ (elementStep_le registers fields.precision) extension.isSome
    { fd := fields.fd, fn := fields.fn, fm := fields.fm }
  simp only [Operands.indices] at vector
  simp only [checkedElements, checkedElementStep_eq, Checked.lift_some, pure_bind, total, vector]
  exact foldlM_elements _ applied

theorem checkedArithmetic_eq {precision : Precision} {op : DataOp}
    {function : precision.Bits → precision.Bits → precision.Bits → precision.Bits}
    (computed : ∀ d n m, op.checkedCompute d n m = some (function d n m)) (operands : Operands) :
    registers.checkedArithmetic precision op operands.indices =
      pure (registers.applyElement precision function operands) := by
  simp [checkedArithmetic, Operands.indices, computed, applyElement]

/-- An operation that takes part in short vectors goes through as many elements as there are. -/
theorem checkedProcess_vector {fields : DataProcessing} {extension : Option ExtensionOp}
    {function : fields.precision.Bits → fields.precision.Bits → fields.precision.Bits → fields.precision.Bits}
    (named : extensionOf fields.op = .ok extension) (vector : extension.all ExtensionOp.isVector = true)
    (computed : ∀ d n m, fields.op.checkedCompute d n m = some (function d n m)) :
    registers.checkedProcess fields =
      pure (registers.applyVector fields.precision extension.isSome function
        { fd := fields.fd, fn := fields.fn, fm := fields.fm }) := by
  have applied (registers : Registers) (operands : Operands) :
      registers.checkedElement fields.precision fields.op extension operands.indices =
        pure (registers.applyElement fields.precision function operands) := by
    rw [← checkedArithmetic_eq computed]
    cases extension with
    | none => rfl
    | some op => exact if_pos vector
  have elements := @checkedElements_eq registers _ _ _ _ (elements_lt registers fields.fd) applied
  simp only [checkedProcess, named, vector, checkedCount_vector, Checked.lift_except, Checked.ofExcept_ok,
    Checked.lift_some, pure_bind]
  exact elements

theorem checkedProcess_scalar {fields : DataProcessing} {op : ScalarOp} (scalar : fields.op = .extension (.scalar op)) :
    registers.checkedProcess fields = pure (registers.applyScalar fields.precision op fields.fd fields.fm) := by
  have named : extensionOf fields.op = .ok (some (.scalar op)) := by rw [scalar]; rfl
  have applied (registers : Registers) (operands : Operands) :
      registers.checkedElement fields.precision fields.op (some (.scalar op)) operands.indices =
        pure (registers.applyScalar fields.precision op operands.fd operands.fm) :=
    checkedScalar_eq fields.precision op operands.fd operands.fm
  have elements := @checkedElements_eq registers _ _ 1 _ (by decide) applied
  rw [checkedProcess, named]
  exact elements

theorem checkedProcess_eq (fields : DataProcessing) :
    registers.checkedProcess fields = .ofExcept (registers.process fields) := by
  cases op : fields.op with
  | arithmetic arithmetic =>
      have computed (d n m : fields.precision.Bits) : fields.op.checkedCompute d n m = some (arithmetic.compute d n m) := by
        rw [op]
        rfl
      have vector := @checkedProcess_vector registers fields none _ (by rw [op]; rfl) rfl computed
      rw [vector, process, op]
      rfl
  | undefined opcode => simp [checkedProcess, process, op, extensionOf]
  | extension extension =>
      cases extension with
      | undefined selector => simp [checkedProcess, process, op, extensionOf]
      | scalar scalar => rw [checkedProcess_scalar op, process, op, Checked.ofExcept_ok]
      | unary unary =>
          have computed (d n m : fields.precision.Bits) : fields.op.checkedCompute d n m = some (unary.compute m) := by
            rw [op]
            rfl
          have vector := @checkedProcess_vector registers fields (some (.unary unary)) _ (by rw [op]; rfl) rfl computed
          rw [vector, process, op]
          rfl

end Registers

/-! ### Lists of slots -/

namespace LoadStore

def checkedBytes (fields : LoadStore) : Option Word := checkedMul (fields.offset.setWidth 32) 4

/-- The number of the slot that a list starts at. -/
def firstIndex (fields : LoadStore) : Index :=
  match fields.precision with
  | .single => fields.fd.index
  | .double => lowIndex fields.fd.index

theorem bytes_fit (fields : LoadStore) : (fields.offset.setWidth 32).toNat * (4 : Word).toNat < 4096 := by
  have small : fields.offset.toNat < 256 := fields.offset.isLt
  have same : (fields.offset.setWidth 32).toNat = fields.offset.toNat := BitVec.toNat_setWidth_of_le (by decide)
  show (fields.offset.setWidth 32).toNat * 4 < 4096
  omega

theorem checkedBytes_eq (fields : LoadStore) : fields.checkedBytes = some (fields.offset.setWidth 32 * 4) :=
  Bits.checkedMul_eq (Nat.lt_trans fields.bytes_fit (by decide))

theorem firstIndex_eq (fields : LoadStore) : fields.firstIndex = (fields.fd.aligned fields.precision).index := by
  unfold firstIndex
  cases fields.precision with
  | single => rfl
  | double => exact Registers.lowIndex_index fields.fd

end LoadStore

end Vfp

namespace Machine

open Vfp (Slot SystemRegister lowIndex)

variable {machine : Machine}

/-! ### Loads and stores -/

def checkedReadSlot (machine : Machine) (slot : Index) : Checked Refusal Word := machine.vfp.checkedRead slot

def checkedWriteSlot (machine : Machine) (slot : Index) (value : Word) : Checked Refusal Machine := do
  let vfp ← machine.vfp.checkedWrite slot value
  return { machine with vfp }

def checkedTransferSlot (machine : Machine) (transfer : Transfer) (address : Word) (slot : Index) :
    Checked Refusal Machine :=
  match transfer with
  | .load => do
    let value ← machine.checkedLoadWord address
    machine.checkedWriteSlot slot value
  | .store => do
    let value ← machine.checkedReadSlot slot
    machine.checkedStoreWord address value

/-- Goes from one place to the next. The slot after is counted even at the end of the list. -/
def checkedTransferSlots (machine : Machine) (transfer : Transfer) (address : Word) (slot : Index) (place : Word) :
    Nat → Checked Refusal Machine
  | 0 => do
    let _ ← checkedAdd slot 1
    return machine
  | count + 1 => do
    let next ← checkedAdd slot 1
    let distance ← checkedMul place 4
    let machine ← machine.checkedTransferSlot transfer (address + distance) slot
    machine.checkedTransferSlots transfer address next (place + 1) count

def transferSlot (machine : Machine) (transfer : Transfer) (address : Word) (slot : Nat) : Except Refusal Machine :=
  match transfer with
  | .load => do
    let value ← machine.loadWord address
    let target ← Slot.number? slot
    return { machine with vfp := machine.vfp.write target value }
  | .store => do
    let source ← Slot.number? slot
    machine.storeWord address (machine.vfp.read source)

def transferFrom (machine : Machine) (transfer : Transfer) (address : Word) (slot count : Nat) :
    Except Refusal Machine :=
  match transfer with
  | .load => machine.loadSlots address slot count
  | .store => machine.storeSlots address slot count

theorem transferFrom_zero (transfer : Transfer) (address : Word) (slot : Nat) :
    machine.transferFrom transfer address slot 0 = .ok machine := by
  cases transfer <;> rfl

theorem transferFrom_succ (transfer : Transfer) (address : Word) (slot count : Nat) :
    machine.transferFrom transfer address slot (count + 1) =
      machine.transferSlot transfer address slot >>= fun machine =>
        machine.transferFrom transfer (address + 4) (slot + 1) count := by
  cases transfer with
  | load => simp [transferFrom, transferSlot, loadSlots]
  | store => simp [transferFrom, transferSlot, storeSlots]

theorem checkedTransferSlot_eq (transfer : Transfer) (address : Word) (slot : Index) :
    machine.checkedTransferSlot transfer address slot =
      .ofExcept (machine.transferSlot transfer address slot.toNat) := by
  cases transfer with
  | load => simp [checkedTransferSlot, transferSlot, checkedWriteSlot, Vfp.Registers.checkedWrite]
  | store => simp [checkedTransferSlot, transferSlot, checkedReadSlot, Vfp.Registers.checkedRead]

theorem checkedAdd_index_one (index : Index) (below : index.toNat + 1 < 2 ^ 64) :
    checkedAdd index 1 = some (index + 1) ∧ (index + 1).toNat = index.toNat + 1 :=
  ⟨Bits.checkedAdd_eq below, BitVec.toNat_add_of_lt below⟩

theorem checkedTransferSlots_eq {transfer : Transfer} {address place : Word} {slot : Index} {count : Nat}
    (slots : slot.toNat + count + 1 < 2 ^ 64) (places : place.toNat + count ≤ 2 ^ 30) :
    machine.checkedTransferSlots transfer address slot place count =
      .ofExcept (machine.transferFrom transfer (address + place * 4) slot.toNat count) := by
  obtain ⟨next, slotAfter⟩ := checkedAdd_index_one slot (by omega)
  induction count generalizing machine slot place with
  | zero =>
      rw [checkedTransferSlots, next, transferFrom_zero]
      rfl
  | succ count ih =>
      have distance : checkedMul place 4 = some (place * 4) := by
        refine Bits.checkedMul_eq ?_
        show place.toNat * 4 < 2 ^ 32
        omega
      have placeAfter : (place + 1).toNat = place.toNat + 1 := by
        refine BitVec.toNat_add_of_lt ?_
        show place.toNat + 1 < 2 ^ 32
        omega
      -- The plain walk moves the address itself, the checked one counts places from where it started.
      have addressAfter : address + place * 4 + 4 = address + (place + 1) * 4 := by grind
      obtain ⟨nextAfter, slotThen⟩ := checkedAdd_index_one (slot + 1) (by omega)
      have rest (machine : Machine) : machine.checkedTransferSlots transfer address (slot + 1) (place + 1) count =
          .ofExcept (machine.transferFrom transfer (address + (place + 1) * 4) (slot.toNat + 1) count) := by
        rw [← slotAfter]
        exact ih (by omega) (by omega) nextAfter slotThen
      simp only [checkedTransferSlots, next, distance, checkedTransferSlot_eq, rest, transferFrom_succ,
        Checked.lift_some, pure_bind, Checked.ofExcept_bind, addressAfter]

theorem checkedTransferSlots_first {transfer : Transfer} {address : Word} {slot : Slot} {count : Nat}
    (short : count < 256) :
    machine.checkedTransferSlots transfer address slot.index 0#32 count =
      .ofExcept (machine.transferSlots transfer address slot count) := by
  have below : slot.toNat < 32 := slot.isLt
  have same : slot.index.toNat = slot.toNat := BitVec.toNat_setWidth_of_le (by decide)
  have start : address + 0#32 * (4 : Word) = address := by simp
  have places : (0#32).toNat + count ≤ 2 ^ 30 := by simp; omega
  rw [checkedTransferSlots_eq (by omega) places, same, start]
  cases transfer <;> rfl

def checkedWriteBackBase (machine : Machine) (rn : Reg) (value : Word) : Checked Refusal Machine := do
  require (rn != Reg.pc) .writeBackToProgramCounter
  machine.checkedWrite rn.toNat value

def checkedVfpLoadStore (machine : Machine) (fields : Vfp.LoadStore) : Checked Refusal Machine := do
  let base ← machine.checkedOperand fields.rn prefetch
  let bytes ← fields.checkedBytes
  let first := fields.firstIndex
  match fields.mode with
  | .unindexed => machine.checkedTransferSlots fields.transfer base first 0 fields.offset.toNat
  | .increment =>
    let machine ← machine.checkedTransferSlots fields.transfer base first 0 fields.offset.toNat
    machine.checkedWriteBackBase fields.rn (base + bytes)
  | .decrement =>
    let machine ← machine.checkedTransferSlots fields.transfer (base - bytes) first 0 fields.offset.toNat
    machine.checkedWriteBackBase fields.rn (base - bytes)
  | .positiveOffset => machine.checkedTransferSlots fields.transfer (base + bytes) first 0 fields.precision.words
  | .negativeOffset => machine.checkedTransferSlots fields.transfer (base - bytes) first 0 fields.precision.words
  | .undefined mode => throw (.undefinedVfpAddressing mode)

theorem checkedVfpLoadStore_eq (fields : Vfp.LoadStore) :
    machine.checkedVfpLoadStore fields = .ofExcept (machine.vfpLoadStore fields) := by
  have offset : fields.offset.toNat < 256 := fields.offset.isLt
  have words : fields.precision.words < 256 := by
    cases fields.precision <;> decide
  simp only [checkedVfpLoadStore, checkedOperand_eq, pure_bind, fields.checkedBytes_eq, Checked.lift_some,
    fields.firstIndex_eq, vfpLoadStore]
  cases mode : fields.mode <;> simp [checkedTransferSlots_first, offset, words, checkedWriteBackBase, writeBackBase]

/-! ### Moves between registers -/

def checkedVfpRegisterTransfer (machine : Machine) (fields : Vfp.RegisterTransfer) : Checked Refusal Machine := do
  let system := SystemRegister.ofIndex fields.fn.toNat
  if fields.op = .fmrx ∧ fields.rd = Reg.pc then machine.moveCompareFlags system
  else
    require (fields.rd != Reg.pc) .vfpTransferWithProgramCounter
    let low := lowIndex fields.fn.index
    match fields.op with
    | .fmsr =>
      let value ← machine.checkedRead fields.rd.toNat
      machine.checkedWriteSlot fields.fn.index value
    | .fmrs =>
      let value ← machine.checkedReadSlot fields.fn.index
      machine.checkedWrite fields.rd.toNat value
    | .fmxr =>
      let value ← machine.checkedRead fields.rd.toNat
      let vfp ← machine.vfp.setSystem system value
      return { machine with vfp }
    | .fmrx =>
      let value ← machine.vfp.system system
      machine.checkedWrite fields.rd.toNat value
    | .fmdlr =>
      let value ← machine.checkedRead fields.rd.toNat
      machine.checkedWriteSlot low value
    | .fmrdl =>
      let value ← machine.checkedReadSlot low
      machine.checkedWrite fields.rd.toNat value
    | .fmdhr =>
      let high ← checkedAdd low 1
      let value ← machine.checkedRead fields.rd.toNat
      machine.checkedWriteSlot high value
    | .fmrdh =>
      let high ← checkedAdd low 1
      let value ← machine.checkedReadSlot high
      machine.checkedWrite fields.rd.toNat value
    | .undefined opcode => throw (.undefinedVfpTransfer opcode)

theorem checkedVfpRegisterTransfer_eq (fields : Vfp.RegisterTransfer) :
    machine.checkedVfpRegisterTransfer fields = .ofExcept (machine.vfpRegisterTransfer fields) := by
  by_cases status : fields.op = .fmrx ∧ fields.rd = Reg.pc
  · simp [checkedVfpRegisterTransfer, vfpRegisterTransfer, status]
  · simp only [checkedVfpRegisterTransfer, vfpRegisterTransfer, if_neg status]
    cases op : fields.op <;>
      simp [checkedReadSlot, checkedWriteSlot, Vfp.Registers.lowIndex_index, Vfp.Registers.checkedAdd_lowHalf]

def checkedExecuteVfp (machine : Machine) : Vfp.Instruction → Checked Refusal Machine
  | .dataProcessing fields => do
    let vfp ← machine.vfp.checkedProcess fields
    return { machine with vfp }
  | .loadStore fields => machine.checkedVfpLoadStore fields
  | .registerTransfer fields => machine.checkedVfpRegisterTransfer fields

theorem checkedExecuteVfp_eq (instruction : Vfp.Instruction) :
    machine.checkedExecuteVfp instruction = .ofExcept (machine.executeVfp instruction) := by
  cases instruction with
  | dataProcessing fields => simp [checkedExecuteVfp, executeVfp, Vfp.Registers.checkedProcess_eq]
  | loadStore fields => exact checkedVfpLoadStore_eq fields
  | registerTransfer fields => exact checkedVfpRegisterTransfer_eq fields

end Machine

end Arm32
