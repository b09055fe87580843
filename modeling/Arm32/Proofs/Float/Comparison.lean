import Arm32.Proofs.Encoding.Execution
import Arm32.Proofs.Float.Value
import Arm32.Proofs.Frame.Footprint

/-! A floating-point comparison, its flags moved to the status register, and the conditions that are tested after that.
They say how the two numbers compare, also where one of them is no number. -/

namespace Arm32

open Vfp (Number)

namespace Vfp

namespace Number

variable {first second : Option Number}

/-- One of them is no number. -/
def Unordered (first second : Option Number) : Prop := first = none ∨ second = none

def Less (first second : Option Number) : Prop := ∃ number ∈ first, ∃ other ∈ second, number < other

def Equal (first second : Option Number) : Prop := ∃ number ∈ first, number ∈ second

theorem order?_eq_none_iff : order? first second = none ↔ Unordered first second := by
  cases first <;> cases second <;> simp [order?, Unordered]

theorem order?_eq_lt_iff : order? first second = some .lt ↔ Less first second := by
  cases first <;> cases second <;> simp [order?, Less]

theorem order?_eq_eq_iff : order? first second = some .eq ↔ Equal first second := by
  cases first <;> cases second <;> simp [order?, Equal, @eq_comm Number]

theorem order?_eq_gt_iff : order? first second = some .gt ↔ Less second first := by
  cases first <;> cases second <;> simp [order?, Less]

end Number

end Vfp

/-- What a condition means after two numbers were compared, of which there may be none. -/
def Condition.RelatesNumbers (condition : Condition) (first second : Option Number) : Prop :=
  match condition with
  | eq => Number.Equal first second
  | ne => ¬ Number.Equal first second
  | cs => ¬ Number.Less first second
  | cc => Number.Less first second
  | mi => Number.Less first second
  | pl => ¬ Number.Less first second
  | vs => Number.Unordered first second
  | vc => ¬ Number.Unordered first second
  | hi => Number.Less second first ∨ Number.Unordered first second
  | ls => Number.Less first second ∨ Number.Equal first second
  | ge => Number.Less second first ∨ Number.Equal first second
  | lt => Number.Less first second ∨ Number.Unordered first second
  | gt => Number.Less second first
  | le => Number.Less first second ∨ Number.Equal first second ∨ Number.Unordered first second
  | al => True
  | nv => False

theorem replaced_and (old new mask : Word) : ((old &&& ~~~mask) ||| (new &&& mask)) &&& mask = new &&& mask := by
  ext place within
  simp only [BitVec.getElem_and, BitVec.getElem_or, BitVec.getElem_not]
  cases old[place] <;> cases new[place] <;> cases mask[place] <;> rfl

namespace Psr

variable {psr : Psr} {value : Word} {place : Nat}

theorem getLsbD_setFlags (flag : flagMask.getLsbD place = true) :
    (psr.setFlags value).bits.getLsbD place = value.getLsbD place := by
  simp [setFlags, flag]

theorem negative_setFlags : (psr.setFlags value).negative = value.getLsbD 31 := getLsbD_setFlags (by decide)

theorem zero_setFlags : (psr.setFlags value).zero = value.getLsbD 30 := getLsbD_setFlags (by decide)

theorem carry_setFlags : (psr.setFlags value).carry = value.getLsbD 29 := getLsbD_setFlags (by decide)

theorem overflow_setFlags : (psr.setFlags value).overflow = value.getLsbD 28 := getLsbD_setFlags (by decide)

/-- The flags of a comparison tell how the numbers compare. -/
theorem holds_comparison_iff (psr : Psr) (first second : Option Number) (condition : Condition) :
    (psr.setFlags (Vfp.comparisonFlags (Number.order? first second))).holds condition = true ↔
      condition.RelatesNumbers first second := by
  have less := @Number.order?_eq_lt_iff first second
  have equal := @Number.order?_eq_eq_iff first second
  have greater := @Number.order?_eq_gt_iff first second
  have unordered := @Number.order?_eq_none_iff first second
  -- Put so, every condition is about one of four outcomes.
  cases condition <;>
    simp only [holds, negative_setFlags, zero_setFlags, carry_setFlags, overflow_setFlags, Condition.RelatesNumbers,
      ← less, ← equal, ← greater, ← unordered] <;>
    generalize Number.order? first second = order <;>
    rcases order with _ | _ | _ | _ <;> decide

end Psr

namespace Vfp

variable {precision : Precision} {op : ScalarOp} {registers : Registers} {fd fm : Slot}

/-- The second number of a comparison: a register, or zero. -/
def ScalarOp.comparand (op : ScalarOp) (precision : Precision) (registers : Registers) (fm : Slot) : Option Number :=
  match op with
  | fcmpz | fcmpez => some (.ofRat 0)
  | _ => (registers.get precision fm).number?

theorem Precision.number?_zero (precision : Precision) : (0 : precision.Bits).number? = some (.ofRat 0) := by
  cases precision <;> simp [Precision.Bits.number?, Precision.Bits.storedExponent, Precision.Bits.magnitude,
    Precision.Bits.fraction, Precision.exponentBits, Precision.Bits.isNegative]

theorem Registers.applyScalar_compare (compares : op.isCompare = true) :
    registers.applyScalar precision op fd fm =
      registers.setCompareFlags (comparisonFlags
        (Number.order? (registers.get precision fd).number? (op.comparand precision registers fm))) := by
  cases op with
  | fcmp | fcmpe => exact congrArg registers.setCompareFlags (compareBits_eq _ _)
  | fcmpz | fcmpez => rw [applyScalar, compareBits_eq, ScalarOp.comparand, precision.number?_zero]
  | fcvt | fuito | fsito | ftoui | ftouiz | ftosi | ftosiz => cases compares

theorem Registers.compareFlags_setCompareFlags (order : Option Ordering) :
    (registers.setCompareFlags (comparisonFlags order)).compareFlags = comparisonFlags order := by
  have inside : comparisonFlags order &&& flagMask = comparisonFlags order := by
    rcases order with _ | _ | _ | _ <;> rfl
  exact (replaced_and registers.fpscr _ flagMask).trans inside

end Vfp

namespace Machine

open Vfp (SystemRegister)

variable {machine : Machine} {comparing moving : Word} {fields : Vfp.DataProcessing} {op : Vfp.ScalarOp}
  {transfer : Vfp.RegisterTransfer}

/-- After a comparison of two floating-point numbers, and after its flags were moved to the status register, a condition
holds exactly if the numbers are as it says. -/
theorem execute_comparison_condition (compares : Instruction.decode comparing = .vfp (.dataProcessing fields))
    (scalar : fields.op = .extension (.scalar op)) (comparison : op.isCompare = true)
    (moves : Instruction.decode moving = .vfp (.registerTransfer transfer))
    (toStatus : transfer.op = .fmrx ∧ transfer.rd = Reg.pc)
    (fromFlags : SystemRegister.ofIndex transfer.fn.toNat = .fpscr)
    (compareHolds : machine.status.holds (Condition.ofWord comparing) = true)
    (moveHolds : machine.status.holds (Condition.ofWord moving) = true) :
    ∃ compared after, machine.execute comparing = .ok (compared, .next) ∧
      (compared.advance .next).execute moving = .ok (after, .next) ∧
      (∀ condition, after.status.holds condition = true ↔
        condition.RelatesNumbers (machine.vfp.get fields.precision fields.fd).number?
          (op.comparand fields.precision machine.vfp fields.fm)) ∧
      after.advance .next = { machine with
        registers := (machine.registers.advance instructionBytes).advance instructionBytes
        status := after.status
        vfp := { machine.vfp with fpscr := after.vfp.fpscr } } ∧
      ∀ place < 28, after.vfp.fpscr.getLsbD place = machine.vfp.fpscr.getLsbD place := by
  let flags := Vfp.comparisonFlags (Vfp.Number.order? (machine.vfp.get fields.precision fields.fd).number?
    (op.comparand fields.precision machine.vfp fields.fm))
  let compared : Machine := { machine with vfp := machine.vfp.setCompareFlags flags }
  let moved : Machine := compared.advance .next
  refine ⟨compared, { moved with status := moved.status.setFlags compared.vfp.compareFlags }, ?_, ?_, ?_, ?_, ?_⟩
  · rw [execute_of_holds compareHolds, compares]
    show continuing (machine.vfp.process fields >>= _) = _
    rw [Vfp.Registers.process, scalar]
    exact congrArg (fun vfp => Except.ok ({ machine with vfp }, Flow.next))
      (Vfp.Registers.applyScalar_compare comparison)
  · show moved.execute moving = _
    rw [@execute_of_holds moved moving moveHolds, moves]
    show continuing (moved.vfpRegisterTransfer transfer) = _
    rw [vfpRegisterTransfer, if_pos toStatus, fromFlags]
    rfl
  · intro condition
    show (machine.status.setFlags (machine.vfp.setCompareFlags flags).compareFlags).holds condition = true ↔ _
    rw [Vfp.Registers.compareFlags_setCompareFlags]
    exact machine.status.holds_comparison_iff _ _ condition
  · rfl
  · have clear : ∀ place < 28, Vfp.Registers.flagMask.getLsbD place = false := by decide
    intro place below
    exact getLsbD_of_and_not (replaced_and_not machine.vfp.fpscr flags Vfp.Registers.flagMask) (clear place below)

/-- Slot 0 holds a quiet NaN, and slot 1 the number one. -/
def withNaN : Machine :=
  { ofImage .arm7 { base := 0, size := 1, cells := .all 0, order := .little, fits := by decide } with
    vfp := (Vfp.Registers.zero.write 0 0x7fc00000).write 1 0x3f800000 }

/-- What is no number is unordered: it counts as less and as greater, but not as equal. -/
theorem execute_comparison_condition_unordered :
    ∃ compared after, withNaN.execute 0xEEB40A60 = .ok (compared, .next) ∧
      (compared.advance .next).execute 0xEEF1FA10 = .ok (after, .next) ∧
      after.status.holds .vs = true ∧ after.status.holds .lt = true ∧ after.status.holds .hi = true ∧
      after.status.holds .eq = false := by
  have compares : Instruction.decode 0xEEB40A60 =
      .vfp (.dataProcessing ⟨.single, .extension (.scalar .fcmp), 0, 8, 1⟩) := rfl
  have moves : Instruction.decode 0xEEF1FA10 = .vfp (.registerTransfer ⟨.single, .fmrx, 2, Reg.pc⟩) := rfl
  obtain ⟨compared, after, executed, moved, relates, -⟩ := @execute_comparison_condition withNaN _ _ _ _ _ compares rfl
    rfl moves ⟨rfl, rfl⟩ rfl rfl rfl
  have unordered : Vfp.Number.Unordered (withNaN.vfp.get .single 0).number?
      (Vfp.ScalarOp.fcmp.comparand .single withNaN.vfp 1) := .inl rfl
  refine ⟨compared, after, executed, moved, (relates .vs).mpr unordered, (relates .lt).mpr (.inr unordered),
    (relates .hi).mpr (.inr unordered), Bool.eq_false_iff.mpr fun equal => ?_⟩
  obtain ⟨number, found, -⟩ := (relates .eq).mp equal
  cases found

end Machine

end Arm32
