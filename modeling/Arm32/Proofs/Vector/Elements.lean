import Arm32.Proofs.Transfer.Slots
import Arm32.Proofs.Vector.Banks

/-! A short vector as one operation on all its elements at once. The elements are computed one after the other and in
place; this shows only if one of them reads what an earlier one wrote. -/

namespace Arm32

namespace Vfp

variable {precision : Precision} {registers before after : Registers} {slot other : Slot}

namespace Slot

theorem toNat_lowHalf (slot : Slot) : slot.lowHalf.toNat = 2 * (slot.toNat / 2) := by
  revert slot
  decide

theorem toNat_highHalf (slot : Slot) : slot.highHalf.toNat = 2 * (slot.toNat / 2) + 1 := by
  revert slot
  decide

theorem shares_lowHalf (slot : Slot) : Shares .double slot.lowHalf slot := by
  simp only [Shares, toNat_lowHalf, Precision.words]
  omega

theorem shares_highHalf (slot : Slot) : Shares .double slot.highHalf slot := by
  simp only [Shares, toNat_highHalf, Precision.words]
  omega

theorem highHalf_ne_lowHalf (slot other : Slot) : slot.highHalf ≠ other.lowHalf := by
  intro same
  have halves := congrArg BitVec.toNat same
  rw [toNat_highHalf, toNat_lowHalf] at halves
  omega

end Slot

namespace Registers

theorem get_congr (same : ∀ slot, Slot.Shares precision slot other → after.read slot = before.read slot) :
    after.get precision other = before.get precision other := by
  cases precision with
  | single => exact same other rfl
  | double => exact congrArg₂ (· ++ ·) (same _ other.shares_highHalf) (same _ other.shares_lowHalf)

theorem get_put (registers : Registers) (precision : Precision) (slot : Slot) (value : precision.Bits) :
    (registers.put precision slot value).get precision slot = value := by
  cases precision with
  | single => exact (registers.read_write slot slot value).trans (if_pos rfl)
  | double =>
      have low : ((registers.write slot.lowHalf (value.extractLsb' 0 32)).write slot.highHalf
          (value.extractLsb' 32 32)).read slot.lowHalf = value.extractLsb' 0 32 := by
        rw [read_write, if_neg (slot.highHalf_ne_lowHalf slot).symm, read_write, if_pos rfl]
      have high : ((registers.write slot.lowHalf (value.extractLsb' 0 32)).write slot.highHalf
          (value.extractLsb' 32 32)).read slot.highHalf = value.extractLsb' 32 32 := by
        rw [read_write, if_pos rfl]
      have whole (value : BitVec 64) : value.extractLsb' 32 32 ++ value.extractLsb' 0 32 = value := by
        rw [BitVec.extractLsb'_append_extractLsb'_eq_extractLsb' (by decide)]
        exact BitVec.extractLsb'_eq_self
      exact (congrArg₂ (· ++ ·) high low).trans (whole value)

theorem read_put_of_not_shares {value : precision.Bits} (apart : ¬ Slot.Shares precision slot other) :
    (registers.put precision slot value).read other = registers.read other := by
  cases precision with
  | single =>
      have distinct : other ≠ slot := by
        rintro rfl
        exact apart rfl
      exact (registers.read_write slot other value).trans (if_neg distinct)
  | double =>
      have low : other ≠ slot.lowHalf := by
        rintro rfl
        exact apart slot.shares_lowHalf.symm
      have high : other ≠ slot.highHalf := by
        rintro rfl
        exact apart slot.shares_highHalf.symm
      show ((registers.write slot.lowHalf _).write slot.highHalf _).read other = registers.read other
      rw [read_write, if_neg high, read_write, if_neg low]

theorem get_put_of_not_shares {value : precision.Bits} (apart : ¬ Slot.Shares precision slot other) :
    (registers.put precision slot value).get precision other = registers.get precision other := by
  refine get_congr fun place shares => read_put_of_not_shares ?_
  exact fun overlap => apart (overlap.trans shares)

end Registers

/-- What an operation computes for one element. An arithmetic one also gets what the destination held. -/
inductive Elementwise (precision : Precision) where
  | arithmetic (compute : precision.Bits → precision.Bits → precision.Bits → precision.Bits)
  | extension (compute : precision.Bits → precision.Bits)

namespace Elementwise

variable {operation : Elementwise precision} {elements : List Operands} {element : Operands}

def isExtension : Elementwise precision → Bool
  | arithmetic _ => false
  | extension _ => true

def compute : Elementwise precision → precision.Bits → precision.Bits → precision.Bits → precision.Bits
  | arithmetic compute => compute
  | extension compute => fun _ _ m => compute m

/-- The registers that an element reads and does not write. -/
def sources : Elementwise precision → Operands → List Slot
  | arithmetic _, element => [element.fn, element.fm]
  | extension _, element => [element.fm]

/-- The new destination of an element. -/
def result (registers : Registers) (element : Operands) : Elementwise precision → precision.Bits
  | arithmetic compute =>
    compute (registers.get precision element.fd) (registers.get precision element.fn)
      (registers.get precision element.fm)
  | extension compute => compute (registers.get precision element.fm)

/-- The registers after the elements, one after the other. -/
def run (operation : Elementwise precision) (elements : List Operands) (registers : Registers) : Registers :=
  elements.foldl (Registers.applyElement · precision operation.compute ·) registers

/-- All elements have been computed from what there was before any of them, and nothing else is different. -/
structure Parallel (operation : Elementwise precision) (element : Nat → Operands) (count : Nat)
    (before after : Registers) : Prop where
  written : ∀ number < count,
    after.get precision (element number).fd = operation.result before (element number)
  kept : ∀ slot, (∀ number < count, ¬ Slot.Shares precision (element number).fd slot) →
    after.read slot = before.read slot
  others : after = { before with slots := after.slots }

/-- No element reads what an earlier one wrote. -/
def HazardFree (operation : Elementwise precision) (element : Nat → Operands) (count : Nat) : Prop :=
  ∀ later < count, ∀ earlier < later, ∀ source ∈ operation.sources (element later),
    ¬ Slot.Shares precision (element earlier).fd source

instance (operation : Elementwise precision) (element : Nat → Operands) (count : Nat) :
    Decidable (operation.HazardFree element count) :=
  inferInstanceAs (Decidable (∀ later < count, ∀ earlier < later, ∀ source ∈ operation.sources (element later),
    ¬ Slot.Shares precision (element earlier).fd source))

theorem applyElement_eq (operation : Elementwise precision) (registers : Registers) (element : Operands) :
    registers.applyElement precision operation.compute element =
      registers.put precision element.fd (operation.result registers element) := by
  cases operation <;> rfl

theorem run_cons :
    operation.run (element :: elements) registers =
      operation.run elements (registers.put precision element.fd (operation.result registers element)) := by
  rw [run, List.foldl_cons, applyElement_eq, run]

theorem result_congr (destination : after.get precision element.fd = before.get precision element.fd)
    (same : ∀ source ∈ operation.sources element, after.get precision source = before.get precision source) :
    operation.result after element = operation.result before element := by
  cases operation with
  | arithmetic compute =>
      have first := same element.fn (by simp [sources])
      have second := same element.fm (by simp [sources])
      rw [result, result, destination, first, second]
  | extension compute => rw [result, result, same element.fm (by simp [sources])]

theorem read_run (apart : ∀ element ∈ elements, ¬ Slot.Shares precision element.fd slot) :
    (operation.run elements registers).read slot = registers.read slot := by
  induction elements generalizing registers with
  | nil => rfl
  | cons element elements ih =>
      obtain ⟨here, rest⟩ := List.forall_mem_cons.mp apart
      rw [run_cons, ih rest, Registers.read_put_of_not_shares here]

theorem get_run_of_not_shares (apart : ∀ element ∈ elements, ¬ Slot.Shares precision element.fd slot) :
    (operation.run elements registers).get precision slot = registers.get precision slot := by
  refine Registers.get_congr fun place shares => read_run fun element member overlap => ?_
  exact apart element member (overlap.trans shares)

/-- Each element is computed as if it were the first, unless one before it writes what it reads. -/
theorem get_run (apart : elements.Pairwise fun earlier later => ¬ Slot.Shares precision earlier.fd later.fd)
    (free : elements.Pairwise fun earlier later =>
      ∀ source ∈ operation.sources later, ¬ Slot.Shares precision earlier.fd source)
    (member : element ∈ elements) :
    (operation.run elements registers).get precision element.fd = operation.result registers element := by
  induction elements generalizing registers with
  | nil => cases member
  | cons first elements ih =>
      obtain ⟨firstApart, restApart⟩ := List.pairwise_cons.mp apart
      obtain ⟨firstFree, restFree⟩ := List.pairwise_cons.mp free
      rw [run_cons]
      rcases List.mem_cons.mp member with rfl | later
      · have kept (later : Operands) (member : later ∈ elements) : ¬ Slot.Shares precision later.fd element.fd :=
          fun shares => firstApart later member shares.symm
        rw [get_run_of_not_shares kept, Registers.get_put]
      · rw [ih restApart restFree later]
        refine result_congr (Registers.get_put_of_not_shares (firstApart element later)) ?_
        exact fun source read => Registers.get_put_of_not_shares (firstFree element later source read)

theorem run_others :
    operation.run elements registers = { registers with slots := (operation.run elements registers).slots } := by
  induction elements generalizing registers with
  | nil => rfl
  | cons element elements ih =>
      rw [run_cons, ih]
      cases precision <;> rfl

/-- The registers after a vector operation from these operands on. -/
def applied (operation : Elementwise precision) (first : Operands) (registers : Registers) : Registers :=
  registers.applyVector precision operation.isExtension operation.compute first

theorem applied_eq_run (operation : Elementwise precision) (first : Operands) (registers : Registers) :
    operation.applied first registers =
      operation.run ((List.range (registers.elements first.fd)).map
        (first.element (registers.elementStep precision) operation.isExtension)) registers := by
  rw [applied, Registers.applyVector, vectorOperands_eq, run]

end Elementwise

namespace Registers

theorem elementStep_pos (registers : Registers) (precision : Precision) : 0 < registers.elementStep precision := by
  unfold elementStep vectorStride
  cases precision <;> split <;> decide

theorem words_dvd_elementStep (registers : Registers) (precision : Precision) :
    precision.words ∣ registers.elementStep precision :=
  Nat.dvd_mul_left _ _

theorem elements_of_scalar (scalar : slot.toNat < 8) : registers.elements slot = 1 := by
  rw [elements, Slot.inScalarBank_eq_decide, decide_eq_true scalar, if_pos rfl]

end Registers

namespace Elementwise

variable {operation : Elementwise precision} {first : Operands}

theorem parallel_applied (fits : registers.elements first.fd * registers.elementStep precision ≤ 8)
    (free : operation.HazardFree (first.element (registers.elementStep precision) operation.isExtension)
      (registers.elements first.fd)) :
    operation.Parallel (first.element (registers.elementStep precision) operation.isExtension)
      (registers.elements first.fd) registers (operation.applied first registers) := by
  let element := first.element (registers.elementStep precision) operation.isExtension
  have inOrder {related : Operands → Operands → Prop}
      (each : ∀ later < registers.elements first.fd, ∀ earlier < later, related (element earlier) (element later)) :
      ((List.range (registers.elements first.fd)).map element).Pairwise related := by
    rw [List.pairwise_map]
    refine List.pairwise_lt_range.imp_of_mem fun _ member order => ?_
    exact each _ (List.mem_range.mp member) _ order
  rw [applied_eq_run]
  refine ⟨fun number below => ?_, fun slot outside => ?_, run_others⟩
  · refine get_run (inOrder fun later within earlier order => ?_) (inOrder free) ?_
    · exact first.element_apart (registers.elementStep_pos precision) (registers.words_dvd_elementStep precision) fits
        order within
    · exact List.mem_map_of_mem (List.mem_range.mpr below)
  · refine read_run fun element member => ?_
    obtain ⟨number, below, rfl⟩ := List.mem_map.mp member
    exact outside number (List.mem_range.mp below)

/-- A destination in the scalar bank makes one element, whatever length and stride are set. -/
theorem applied_of_scalar (scalar : first.fd.toNat < 8) :
    operation.applied first registers = registers.put precision first.fd (operation.result registers first) := by
  rw [applied_eq_run, Registers.elements_of_scalar scalar]
  show operation.run [first.element _ _ 0] registers = _
  rw [Operands.element_zero, run_cons]
  rfl

end Elementwise

/-- What an operation computes for an element, if it takes part in short vectors. -/
def DataOp.elementwise? (precision : Precision) : DataOp → Option (Elementwise precision)
  | arithmetic op => some (.arithmetic op.compute)
  | extension (.unary op) => some (.extension op.compute)
  | _ => none

/-- The operands of the first element. -/
def DataProcessing.first (fields : DataProcessing) : Operands := { fd := fields.fd, fn := fields.fn, fm := fields.fm }

theorem Registers.process_of_elementwise? {fields : DataProcessing} {operation : Elementwise fields.precision}
    (vectorizable : fields.op.elementwise? fields.precision = some operation) :
    registers.process fields = .ok (operation.applied fields.first registers) := by
  rw [process]
  cases op : fields.op with
  | arithmetic arithmetic =>
      rw [op] at vectorizable
      cases vectorizable
      rfl
  | undefined opcode =>
      rw [op] at vectorizable
      cases vectorizable
  | extension extension =>
      rw [op] at vectorizable
      cases extension with
      | unary unary =>
          cases vectorizable
          rfl
      | scalar scalar | undefined selector => cases vectorizable

end Vfp

namespace Machine

open Vfp (Elementwise Slot)

variable {machine : Machine} {word : Word} {fields : Vfp.DataProcessing} {operation : Elementwise fields.precision}

/-- A short vector operation is the operation on all its elements at once, whatever is computed: it has to fit the bank,
and no element may read what an earlier one wrote. With a destination in the scalar bank there is only one element. -/
theorem execute_shortVector (decoded : Instruction.decode word = .vfp (.dataProcessing fields))
    (vectorizable : fields.op.elementwise? fields.precision = some operation)
    (holds : machine.status.holds (Condition.ofWord word) = true) :
    let count := machine.vfp.elements fields.fd
    let step := machine.vfp.elementStep fields.precision
    let element := fields.first.element step operation.isExtension
    machine.execute word = .ok ({ machine with vfp := operation.applied fields.first machine.vfp }, .next) ∧
      ∀ any : Elementwise fields.precision, any.isExtension = operation.isExtension →
        (count * step ≤ 8 → any.HazardFree element count →
          any.Parallel element count machine.vfp (any.applied fields.first machine.vfp)) ∧
        (fields.fd.toNat < 8 →
          any.applied fields.first machine.vfp =
            machine.vfp.put fields.precision fields.fd (any.result machine.vfp fields.first)) := by
  intro count step element
  refine ⟨?_, fun any same => ⟨fun fits free => ?_, fun scalar => ?_⟩⟩
  · rw [execute_of_holds holds, decoded]
    show continuing (machine.vfp.process fields >>= _) = _
    rw [Vfp.Registers.process_of_elementwise? vectorizable]
    rfl
  · have form : element = fields.first.element step any.isExtension := by rw [same]
    rw [form] at free ⊢
    exact Elementwise.parallel_applied fits free
  · exact Elementwise.applied_of_scalar scalar

/-- Vectors have two elements, and the slots 16 and 17 hold one each. -/
def withTwoElements : Machine :=
  let vfp := (Vfp.Registers.zero.write 16 0x3f800000).write 17 0x40000000
  { ofImage .arm7 { base := 0, size := 2, cells := .all 0, order := .little, fits := by decide } with
    vfp := { vfp with fpscr := 0x00010000 } }

/-- A copy to the end of a bank goes on at its beginning, and to the scalar bank it is one slot only. -/
theorem execute_shortVector_wrapping :
    ∃ vector scalar, withTwoElements.execute 0xEEF07A48 = .ok (vector, .next) ∧
      vector.vfp.read 15 = 0x3f800000 ∧ vector.vfp.read 8 = 0x40000000 ∧ vector.vfp.read 16 = 0x3f800000 ∧
      withTwoElements.execute 0xEEB00A48 = .ok (scalar, .next) ∧
      scalar.vfp = withTwoElements.vfp.write 0 0x3f800000 := by
  have copies : Instruction.decode 0xEEF07A48 =
      .vfp (.dataProcessing ⟨.single, .extension (.unary .fcpy), 15, 0, 16⟩) := rfl
  have copiesOne : Instruction.decode 0xEEB00A48 =
      .vfp (.dataProcessing ⟨.single, .extension (.unary .fcpy), 0, 0, 16⟩) := rfl
  obtain ⟨executed, atOnce⟩ := @execute_shortVector withTwoElements _ _ _ copies rfl rfl
  obtain ⟨executedOne, one⟩ := @execute_shortVector withTwoElements _ _ _ copiesOne rfl rfl
  have parallel := (atOnce _ rfl).1 (by decide) (by decide)
  refine ⟨_, _, executed, parallel.written 0 (by decide), parallel.written 1 (by decide), ?_, executedOne, ?_⟩
  · exact parallel.kept 16 (by decide)
  · exact (one _ rfl).2 (by decide)

end Machine

end Arm32
