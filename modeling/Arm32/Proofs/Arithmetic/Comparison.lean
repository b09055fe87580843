import Arm32.Proofs.Arithmetic.Adder
import Arm32.Proofs.Arithmetic.Flags
import Arm32.Proofs.Arithmetic.Operation
import Arm32.Proofs.Encoding.Execution
import Arm32.Proofs.Safety.Documented

/-! A comparison, and the conditions that are tested after it. The flags of a difference are the flags of an inverted sum
with a carry in; read by a condition they say how the two operands compare as integers. -/

namespace Arm32

/-- What a condition means after two numbers were compared. -/
def Condition.Relates : Condition → Word → Word → Prop
  | eq, first, second => first = second
  | ne, first, second => first ≠ second
  | cs, first, second => second.toNat ≤ first.toNat
  | cc, first, second => first.toNat < second.toNat
  | mi, first, second => (first - second).toInt < 0
  | pl, first, second => 0 ≤ (first - second).toInt
  | vs, first, second => ¬ Word.FitsSigned (first.toInt - second.toInt)
  | vc, first, second => Word.FitsSigned (first.toInt - second.toInt)
  | hi, first, second => second.toNat < first.toNat
  | ls, first, second => first.toNat ≤ second.toNat
  | ge, first, second => second.toInt ≤ first.toInt
  | lt, first, second => first.toInt < second.toInt
  | gt, first, second => second.toInt < first.toInt
  | le, first, second => first.toInt ≤ second.toInt
  | al, _, _ => True
  | nv, _, _ => False

namespace Adder

variable (first second : Word)

theorem sub_zero : (add first (~~~second) true).zero = decide (first = second) := by
  rw [add_zero, sub_result, Bool.eq_iff_iff, beq_iff_eq, decide_eq_true_eq]
  constructor
  · intro nothing
    bv_omega
  · rintro rfl
    exact BitVec.sub_self first

theorem sub_sign : (add first (~~~second) true).sign = decide ((first - second).toInt < 0) := by
  rw [add_sign, sub_result, BitVec.msb_eq_toInt]

/-- The sign is that of the exact difference, unless the difference overflows. -/
theorem sub_sign_bne_overflow :
    ((add first (~~~second) true).sign != (add first (~~~second) true).overflow) =
      decide (first.toInt < second.toInt) := by
  have below := first.isLt
  have below' := second.isLt
  have difference : (first - second).toNat = (0x100000000 - second.toNat + first.toNat) % 0x100000000 :=
    BitVec.toNat_sub first second
  rw [sub_sign, sub_overflow, Bool.eq_iff_iff, bne_iff_ne, ne_eq, decide_eq_decide, decide_eq_true_eq]
  simp only [Word.FitsSigned, Word.toInt_eq, difference]
  split <;> split <;> split <;> omega

end Adder

/-- The flags of a difference tell how its operands compare. -/
theorem Psr.holds_difference_iff (psr : Psr) (first second : Word) (condition : Condition) :
    (psr.setArithmetic (Adder.add first (~~~second) true)).holds condition = true ↔ condition.Relates first second := by
  have zero : (psr.setArithmetic (Adder.add first (~~~second) true)).zero = decide (first = second) :=
    zero_setArithmetic.trans (Adder.sub_zero first second)
  have carry : (psr.setArithmetic (Adder.add first (~~~second) true)).carry = decide (second.toNat ≤ first.toNat) :=
    carry_setArithmetic.trans (Adder.sub_carry first second)
  have sign : (psr.setArithmetic (Adder.add first (~~~second) true)).negative = decide ((first - second).toInt < 0) :=
    negative_setArithmetic.trans (Adder.sub_sign first second)
  have overflow : (psr.setArithmetic (Adder.add first (~~~second) true)).overflow =
      decide (¬ Word.FitsSigned (first.toInt - second.toInt)) :=
    overflow_setArithmetic.trans (Adder.sub_overflow first second)
  have less : ((psr.setArithmetic (Adder.add first (~~~second) true)).negative !=
      (psr.setArithmetic (Adder.add first (~~~second) true)).overflow) = decide (first.toInt < second.toInt) := by
    rw [negative_setArithmetic, overflow_setArithmetic, Adder.sub_sign_bne_overflow]
  have atLeast : ((psr.setArithmetic (Adder.add first (~~~second) true)).negative ==
      (psr.setArithmetic (Adder.add first (~~~second) true)).overflow) = decide (second.toInt ≤ first.toInt) := by
    rw [← Bool.not_not (_ == _), ← bne, less, ← decide_not, decide_eq_decide]
    exact Int.not_lt
  have unsigned : first = second ↔ first.toNat = second.toNat := BitVec.toNat_inj.symm
  have signed : first = second ↔ first.toInt = second.toInt := BitVec.toInt_inj.symm
  cases condition with
  | eq => simp only [holds, Condition.Relates, zero, decide_eq_true_eq]
  | ne => simp only [holds, Condition.Relates, zero, Bool.not_eq_true', decide_eq_false_iff_not, ne_eq]
  | cs => simp only [holds, Condition.Relates, carry, decide_eq_true_eq]
  | cc => simp only [holds, Condition.Relates, carry, Bool.not_eq_true', decide_eq_false_iff_not, Nat.not_le]
  | mi => simp only [holds, Condition.Relates, sign, decide_eq_true_eq]
  | pl => simp only [holds, Condition.Relates, sign, Bool.not_eq_true', decide_eq_false_iff_not, Int.not_lt]
  | vs => simp only [holds, Condition.Relates, overflow, decide_eq_true_eq]
  | vc => simp only [holds, Condition.Relates, overflow, Bool.not_eq_true', decide_eq_false_iff_not, Classical.not_not]
  | hi =>
      simp only [holds, Condition.Relates, carry, zero, unsigned, Bool.and_eq_true, Bool.not_eq_true', decide_eq_true_eq,
        decide_eq_false_iff_not]
      omega
  | ls =>
      simp only [holds, Condition.Relates, carry, zero, unsigned, Bool.or_eq_true, Bool.not_eq_true', decide_eq_true_eq,
        decide_eq_false_iff_not]
      omega
  | ge => simp only [holds, Condition.Relates, atLeast, decide_eq_true_eq]
  | lt => simp only [holds, Condition.Relates, less, decide_eq_true_eq]
  | gt =>
      simp only [holds, Condition.Relates, atLeast, zero, signed, Bool.and_eq_true, Bool.not_eq_true', decide_eq_true_eq,
        decide_eq_false_iff_not]
      omega
  | le =>
      simp only [holds, Condition.Relates, less, zero, signed, Bool.or_eq_true, decide_eq_true_eq]
      omega
  | al => simp only [holds, Condition.Relates]
  | nv => simp only [holds, Condition.Relates, Bool.false_eq_true]

namespace Machine

variable {machine : Machine} {word first second : Word} {carry : Bool} {fields : DataProcessing}

/-- A comparison, and a subtraction of which only the flags are looked at. -/
theorem dataProcessing_compare
    (compares : fields.op = .cmp ∨ fields.op = .sub ∧ fields.rd ≠ Reg.pc) (sets : fields.setFlags = true)
    (firstRead : machine.operand fields.rn (firstAhead fields.operand) = first)
    (secondRead : machine.operand2 fields.operand = .ok ⟨second, carry⟩) :
    ∃ after, machine.dataProcessing fields = .ok (after, .next) ∧
      after.status = machine.status.setArithmetic (Adder.add first (~~~second) true) := by
  rcases compares with op | ⟨op, apart⟩
  · have permitted : checkFlagBit fields = .ok () := by
      rw [checkFlagBit, op, sets]
      rfl
    refine ⟨{ machine with status := machine.status.setArithmetic (Adder.add first (~~~second) true) },
      (dataProcessing_of_operand2 permitted secondRead).trans ?_, ?_⟩
    · simp only [DataProcessing.done, DataProcessing.flagged, DataProcessing.result, op, sets, AluOp.isTest,
        AluOp.compute, AluResult.setFlags, firstRead, if_true]
    · rfl
  · have permitted : checkFlagBit fields = .ok () := by
      rw [checkFlagBit, op, sets, beq_eq_false_iff_ne.mpr apart]
      rfl
    refine ⟨{ machine with status := machine.status.setArithmetic (Adder.add first (~~~second) true) }.write fields.rd
      (first - second), (dataProcessing_of_operand2 permitted secondRead).trans ?_, ?_⟩
    · simp only [DataProcessing.done, DataProcessing.flagged, DataProcessing.result, op, sets, AluOp.isTest,
        AluOp.compute, AluResult.setFlags, AluResult.word, firstRead, writeResult, apart, if_true, if_false,
        Adder.sub_result, Bool.false_eq_true]
    · rfl

/-- After a comparison, or a subtraction that sets the flags, a condition holds exactly if the operands are as it says. -/
theorem execute_compare (decoded : Instruction.decode word = .dataProcessing fields)
    (compares : fields.op = .cmp ∨ fields.op = .sub ∧ fields.setFlags = true ∧ fields.rd ≠ Reg.pc)
    (holds : machine.status.holds (Condition.ofWord word) = true)
    (firstRead : machine.operand fields.rn (firstAhead fields.operand) = first)
    (secondRead : machine.operand2 fields.operand = .ok ⟨second, carry⟩) :
    ∃ after, machine.execute word = .ok (after, .next) ∧
      ∀ condition, after.status.holds condition = true ↔ condition.Relates first second := by
  have sets : fields.setFlags = true := by
    rcases compares with op | ⟨-, sets, -⟩
    · have encoded := Instruction.isEncoded_decode word
      rw [decoded] at encoded
      exact encoded.1 (by rw [op]; rfl)
    · exact sets
  obtain ⟨after, executed, flags⟩ := dataProcessing_compare
    (compares.imp_right fun ⟨op, _, apart⟩ => ⟨op, apart⟩) sets firstRead secondRead
  refine ⟨after, ?_, fun condition => ?_⟩
  · rw [execute_of_holds holds, decoded]
    exact executed
  · rw [flags]
    exact Psr.holds_difference_iff machine.status first second condition

/-- Register 0 is the lowest of the signed numbers. -/
def atLowest : Machine :=
  (ofImage .arm7 { base := 0, size := 4, cells := .all 0, order := .little, fits := by decide }).write 0 0x80000000

/-- One less than the lowest number overflows: it is below one as a signed number, and above one as an unsigned. -/
theorem execute_compare_lowest :
    ∃ after, atLowest.execute 0xE3500001 = .ok (after, .next) ∧
      after.status.holds .lt = true ∧ after.status.holds .vs = true ∧ after.status.holds .hi = true ∧
      after.status.holds .ge = false := by
  have decoded : Instruction.decode 0xE3500001 = .dataProcessing ⟨.cmp, true, 0, 0, .immediate 1 0⟩ := by decide
  have holds : atLowest.status.holds (Condition.ofWord 0xE3500001) = true := by decide
  have firstRead : atLowest.operand 0 prefetch = 0x80000000 := by decide
  have secondRead : atLowest.operand2 (.immediate 1 0) = .ok ⟨1, false⟩ := by decide
  obtain ⟨after, executed, relates⟩ := execute_compare decoded (.inl rfl) holds firstRead secondRead
  have below : Condition.lt.Relates 0x80000000 1 := show (0x80000000 : Word).toInt < (1 : Word).toInt by decide
  have apart : Condition.vs.Relates 0x80000000 1 :=
    show ¬ Word.FitsSigned ((0x80000000 : Word).toInt - (1 : Word).toInt) by decide
  have above : Condition.hi.Relates 0x80000000 1 := show (1 : Word).toNat < (0x80000000 : Word).toNat by decide
  refine ⟨after, executed, (relates .lt).mpr below, (relates .vs).mpr apart, (relates .hi).mpr above, ?_⟩
  exact Bool.eq_false_iff.mpr fun atLeast => absurd ((relates .ge).mp atLeast) (Int.not_le.mpr below)

end Machine

end Arm32
