import Arm32.Proofs.Arithmetic.Adder
import Arm32.Proofs.Arithmetic.Flags
import Arm32.Proofs.Arithmetic.Operation
import Arm32.Proofs.Encoding.Execution
import Arm32.Proofs.Frame.Execution

/-! Data processing against the integers. An operation works on each two bits of its operands alone, or it stands for an
integer: a sum, or a difference from which a clear carry takes one more. The word that it gives is that integer modulo
2^32. Read as unsigned numbers the operands tell the carry, and read as signed numbers they tell the overflow. -/

namespace Arm32

/-- What an operation stands for. The integers are functions of the two operands and of the carry. -/
inductive AluMeaning where
  | bitwise (bit : Bool → Bool → Bool)
  | sum (value : Int → Int → Int → Int)
  | difference (value : Int → Int → Int → Int)

def AluOp.meaning : AluOp → AluMeaning
  | and | tst => .bitwise fun first second => first && second
  | eor | teq => .bitwise fun first second => first ^^ second
  | orr => .bitwise fun first second => first || second
  | mov => .bitwise fun _ second => second
  | bic => .bitwise fun first second => first && !second
  | mvn => .bitwise fun _ second => !second
  | add | cmn => .sum fun first second _ => first + second
  | adc => .sum fun first second carry => first + second + carry
  | sub | cmp => .difference fun first second _ => first - second
  | sbc => .difference fun first second carry => first - second - (1 - carry)
  | rsb => .difference fun first second _ => second - first
  | rsc => .difference fun first second carry => second - first - (1 - carry)

namespace AluMeaning

def HasResult (meaning : AluMeaning) (first second : Word) (carry : Bool) (result : Word) : Prop :=
  match meaning with
  | bitwise bit => ∀ place < 32, result.getLsbD place = bit (first.getLsbD place) (second.getLsbD place)
  | sum value | difference value => (result.toNat : Int) = value first.toNat second.toNat carry.toNat % Word.bound

/-- A sum carries if it does not fit a word. A difference carries if nothing had to be borrowed. -/
def carryOut (meaning : AluMeaning) (first second : Word) (carry shifterCarry : Bool) : Bool :=
  match meaning with
  | bitwise _ => shifterCarry
  | sum value => decide ((Word.bound : Int) ≤ value first.toNat second.toNat carry.toNat)
  | difference value => decide (0 ≤ value first.toNat second.toNat carry.toNat)

def overflowOut (meaning : AluMeaning) (first second : Word) (carry overflow : Bool) : Bool :=
  match meaning with
  | bitwise _ => overflow
  | sum value | difference value => decide (¬ Word.FitsSigned (value first.toInt second.toInt carry.toNat))

end AluMeaning

/-! ### Sums that stand for integers -/

/-- A sum that is an integer modulo 2^32, which is `unsigned` for unsigned operands and `signed` for signed ones. -/
structure Sum.IsExact (sum : Sum) (unsigned signed : Int) (carries : Bool) : Prop where
  result : (sum.result.toNat : Int) = unsigned % Word.bound
  carry : sum.carry = carries
  overflow : sum.overflow = decide (¬ Word.FitsSigned signed)
  sign : sum.sign = sum.result.msb
  zero : sum.zero = (sum.result == 0)

namespace Adder

theorem add_isExact (first second : Word) (carry : Bool) :
    (add first second carry).IsExact (first.toNat + second.toNat + carry.toNat)
      (first.toInt + second.toInt + carry.toNat)
      (decide ((Word.bound : Int) ≤ first.toNat + second.toNat + carry.toNat)) := by
  refine ⟨?_, ?_, add_overflow first second carry, add_sign first second carry, add_zero first second carry⟩
  · rw [add_result]
    cases carry <;> simp only [BitVec.toNat_add, Bool.toNat_false, Bool.toNat_true, Word.bound] <;> simp
  · rw [add_carry, decide_eq_decide]
    omega

/-- The complement of the second operand, with a carry for what is not borrowed. -/
theorem borrow_isExact (first second : Word) (carry : Bool) :
    (add first (~~~second) carry).IsExact (first.toNat - second.toNat - (1 - carry.toNat))
      (first.toInt - second.toInt - (1 - carry.toNat))
      (decide (0 ≤ (first.toNat - second.toNat - (1 - carry.toNat) : Int))) := by
  have below := second.isLt
  have sum := add_isExact first (~~~second) carry
  refine { sum with result := ?_, carry := ?_, overflow := ?_ }
  · rw [sum.result, BitVec.toNat_not, Word.bound]
    omega
  · rw [sum.carry, BitVec.toNat_not, Word.bound, decide_eq_decide]
    omega
  · have difference : first.toInt + (~~~second).toInt + (carry.toNat : Int) =
        first.toInt - second.toInt - (1 - carry.toNat) := by
      rw [Word.toInt_not]
      omega
    rw [sum.overflow, difference]

theorem add_clear (value : Int) : value + (false.toNat : Int) = value := Int.add_zero value

theorem sub_set (value : Int) : value - (1 - (true.toNat : Int)) = value := Int.sub_zero value

end Adder

/-! ### Operations -/

/-- A result, and the flags that it sets, are as a meaning has them. -/
structure AluResult.Represents (result : AluResult) (meaning : AluMeaning) (first second : Word) (carry : Bool) :
    Prop where
  word : meaning.HasResult first second carry result.word
  negative : ∀ status shifterCarry, (result.setFlags status shifterCarry).negative = result.word.msb
  zero : ∀ status shifterCarry, (result.setFlags status shifterCarry).zero = (result.word == 0)
  carries : ∀ status shifterCarry,
    (result.setFlags status shifterCarry).carry = meaning.carryOut first second carry shifterCarry
  overflows : ∀ status shifterCarry,
    (result.setFlags status shifterCarry).overflow = meaning.overflowOut first second carry status.overflow

namespace AluResult.Represents

variable {first second word : Word} {carry : Bool} {bit : Bool → Bool → Bool} {total : Sum}
  {value : Int → Int → Int → Int}

theorem bitwise (bits : ∀ place < 32, word.getLsbD place = bit (first.getLsbD place) (second.getLsbD place)) :
    (logical word).Represents (.bitwise bit) first second carry where
  word := bits
  negative _ _ := Psr.negative_setLogical
  zero _ _ := Psr.zero_setLogical
  carries _ _ := Psr.carry_setLogical
  overflows _ _ := Psr.overflow_setLogical

theorem sum (isExact : total.IsExact (value first.toNat second.toNat carry.toNat)
      (value first.toInt second.toInt carry.toNat)
      (decide ((Word.bound : Int) ≤ value first.toNat second.toNat carry.toNat))) :
    (arithmetic total).Represents (.sum value) first second carry where
  word := isExact.result
  negative _ _ := Psr.negative_setArithmetic.trans isExact.sign
  zero _ _ := Psr.zero_setArithmetic.trans isExact.zero
  carries _ _ := Psr.carry_setArithmetic.trans isExact.carry
  overflows _ _ := Psr.overflow_setArithmetic.trans isExact.overflow

theorem difference (isExact : total.IsExact (value first.toNat second.toNat carry.toNat)
      (value first.toInt second.toInt carry.toNat) (decide (0 ≤ value first.toNat second.toNat carry.toNat))) :
    (arithmetic total).Represents (.difference value) first second carry where
  word := isExact.result
  negative _ _ := Psr.negative_setArithmetic.trans isExact.sign
  zero _ _ := Psr.zero_setArithmetic.trans isExact.zero
  carries _ _ := Psr.carry_setArithmetic.trans isExact.carry
  overflows _ _ := Psr.overflow_setArithmetic.trans isExact.overflow

end AluResult.Represents

theorem AluOp.compute_represents (op : AluOp) (first second : Word) (carry : Bool) :
    (op.compute first second carry).Represents op.meaning first second carry := by
  cases op with
  | and | tst => exact .bitwise fun place _ => BitVec.getLsbD_and
  | eor | teq => exact .bitwise fun place _ => BitVec.getLsbD_xor
  | orr => exact .bitwise fun place _ => BitVec.getLsbD_or
  | mov => exact .bitwise fun place _ => rfl
  | bic =>
      refine .bitwise fun place within => ?_
      rw [BitVec.getLsbD_and, BitVec.getLsbD_not, decide_eq_true within, Bool.true_and]
  | mvn =>
      refine .bitwise fun place within => ?_
      rw [BitVec.getLsbD_not, decide_eq_true within, Bool.true_and]
  | add | cmn =>
      have sum := Adder.add_isExact first second false
      simp only [Adder.add_clear] at sum
      exact .sum sum
  | sub | cmp =>
      have difference := Adder.borrow_isExact first second true
      simp only [Adder.sub_set] at difference
      exact .difference difference
  | rsb =>
      have difference := Adder.borrow_isExact second first true
      simp only [Adder.sub_set] at difference
      exact .difference difference
  | adc => exact .sum (Adder.add_isExact first second carry)
  | sbc => exact .difference (Adder.borrow_isExact first second carry)
  | rsc => exact .difference (Adder.borrow_isExact second first carry)

/-! ### Operands -/

namespace DataProcessing

variable (fields : DataProcessing) (machine : Machine)

/-- How far ahead of its instruction the program counter reads: an amount in a register costs another one. -/
def readAhead : Word :=
  match fields.operand with
  | .register ⟨_, _, .register _ _⟩ => 12
  | _ => 8

def firstOperand : Word := machine.operand fields.rn fields.readAhead

/-- What comes out of the shifter. An immediate leaves the carry alone. -/
def secondOperand : Shifted :=
  match fields.operand with
  | .immediate base rotate => { result := Shifter.rotated base rotate, carry := machine.status.carry }
  | .register ⟨rm, kind, .immediate places⟩ =>
    Shifter.byImmediate kind places (machine.operand rm fields.readAhead) machine.status.carry
  | .register ⟨rm, kind, .register rs _⟩ =>
    Shifter.byRegister kind (machine.read rs) (machine.operand rm fields.readAhead) machine.status.carry

theorem firstAhead_eq : Machine.firstAhead fields.operand = fields.readAhead := by
  unfold readAhead Machine.firstAhead
  cases fields.operand with
  | immediate base rotate => rfl
  | register operand =>
      obtain ⟨rm, kind, amount⟩ := operand
      cases amount <;> rfl

theorem operand2_eq : Ensures (fun second => second = fields.secondOperand machine) (machine.operand2 fields.operand) := by
  unfold secondOperand readAhead
  cases fields.operand with
  | immediate base rotate => exact .answer rfl
  | register operand =>
      obtain ⟨rm, kind, amount⟩ := operand
      cases amount with
      | immediate places => exact .answer rfl
      | register rs reserved => exact .bind_any fun _ => .bind_any fun _ => .pure rfl

end DataProcessing

/-! ### Instructions -/

/-- What a data processing instruction leaves, said of the integers and the bits that its operands are. -/
structure DataProcessing.Leaves (fields : DataProcessing) (before after : Machine) (result : Word) : Prop where
  computed : fields.op.meaning.HasResult (fields.firstOperand before) (fields.secondOperand before).result
    before.status.carry result
  registers : after.registers = if fields.op.isTest then before.registers else before.registers.write fields.rd result
  unset : fields.setFlags = false → after.status = before.status
  negative : fields.setFlags = true → after.status.negative = decide (result.toInt < 0)
  zero : fields.setFlags = true → after.status.zero = decide (result = 0)
  carries : fields.setFlags = true →
    after.status.carry = fields.op.meaning.carryOut (fields.firstOperand before) (fields.secondOperand before).result
      before.status.carry (fields.secondOperand before).carry
  overflows : fields.setFlags = true →
    after.status.overflow = fields.op.meaning.overflowOut (fields.firstOperand before)
      (fields.secondOperand before).result before.status.carry before.status.overflow
  others : after.status.bits &&& ~~~Psr.flagMask = before.status.bits &&& ~~~Psr.flagMask
  memory : after.memory = before.memory
  vfp : after.vfp = before.vfp
  processor : after.processor = before.processor

namespace DataProcessing

variable (fields : DataProcessing) (machine : Machine)

theorem result_represents (second : Shifted) :
    (fields.result machine second).Represents fields.op.meaning (fields.firstOperand machine) second.result
      machine.status.carry := by
  rw [result, firstAhead_eq]
  exact fields.op.compute_represents _ _ _

theorem done_eq (second : Shifted) :
    (fields.done machine second).1 =
      { machine with
        status :=
          if fields.setFlags then (fields.result machine second).setFlags machine.status second.carry
          else machine.status
        registers :=
          if fields.op.isTest then machine.registers
          else machine.registers.write fields.rd (fields.result machine second).word } := by
  unfold done flagged
  cases fields.op.isTest <;> cases fields.setFlags <;> rfl

theorem done_flow (second : Shifted) (apart : fields.rd ≠ Reg.pc) : (fields.done machine second).2 = .next := by
  unfold done
  cases fields.op.isTest with
  | false => exact if_neg apart
  | true => rfl

theorem result_setFlags_and_not (second : Shifted) :
    ((fields.result machine second).setFlags machine.status second.carry).bits &&& ~~~Psr.flagMask =
      machine.status.bits &&& ~~~Psr.flagMask := by
  have covered : fields.op.flagMask &&& ~~~Psr.flagMask = 0 := by
    unfold AluOp.flagMask
    split <;> decide
  exact and_not_of_and_not (fields.op.compute_setFlags_and_not _ _ _ _ _) covered

theorem done_leaves :
    fields.Leaves machine (fields.done machine (fields.secondOperand machine)).1
      (fields.result machine (fields.secondOperand machine)).word := by
  have represents := fields.result_represents machine (fields.secondOperand machine)
  have others := fields.result_setFlags_and_not machine (fields.secondOperand machine)
  rw [done_eq]
  refine ⟨represents.word, rfl, ?_, ?_, ?_, ?_, ?_, ?_, rfl, rfl, rfl⟩
  · intro unset
    simp only [unset, Bool.false_eq_true, if_false]
  · intro sets
    simp only [sets, if_true, represents.negative, BitVec.msb_eq_toInt]
  · intro sets
    simp only [sets, if_true, represents.zero, beq_eq_decide]
  · intro sets
    simp only [sets, if_true, represents.carries]
  · intro sets
    simp only [sets, if_true, represents.overflows]
  · cases sets : fields.setFlags with
    | false => rfl
    | true => exact others

end DataProcessing

namespace Machine

variable {machine after : Machine} {word : Word} {fields : DataProcessing} {flow : Flow}

theorem dataProcessing_leaves (executed : machine.dataProcessing fields = .ok (after, flow)) :
    ∃ result, fields.Leaves machine after result := by
  obtain ⟨-, second, read, done⟩ := dataProcessing_eq_ok_iff.mp executed
  obtain rfl := fields.operand2_eq machine second read
  have left : after = (fields.done machine (fields.secondOperand machine)).1 := congrArg Prod.fst done
  rw [left]
  exact ⟨_, fields.done_leaves machine⟩

/-- A data processing instruction that keeps its rules computes with exact integers: what it leaves is what its operation
means. -/
theorem execute_dataProcessing (decoded : Instruction.decode word = .dataProcessing fields)
    (holds : machine.status.holds (Condition.ofWord word) = true) :
    ((∃ done, machine.execute word = .ok done) ↔ fields.isForbidden = false) ∧
      ∀ after flow, machine.execute word = .ok (after, flow) → ∃ result, fields.Leaves machine after result := by
  rw [execute_of_holds holds, decoded]
  refine ⟨?_, fun after flow => dataProcessing_leaves⟩
  exact exists_ok_iff.trans ((not_congr refused_dataProcessing_iff).trans (Bool.not_eq_true _).to_iff)

def withoutMemory : Machine :=
  ofImage .arm7 { base := 0, size := 0, cells := .all 0, order := .little, fits := by decide }

/-- The program counter is both operands, and register 1 the amount of a shift by 4. -/
def shiftingCounter : Machine := (withoutMemory.write 1 4).write Reg.pc 0x1000

/-- With a register as the amount the program counter reads 12 ahead, and the clear carry takes one more. -/
theorem execute_dataProcessing_reverse :
    ∃ after, shiftingCounter.execute 0xE0FF011F = .ok (after, .next) ∧
      after.registers = shiftingCounter.registers.write 0 (0x100C0 - 0x100C - 1) ∧
      after.status.carry = true ∧ after.status.overflow = false := by
  have decoded : Instruction.decode 0xE0FF011F =
      .dataProcessing ⟨.rsc, true, 15, 0, .register ⟨15, .lsl, .register 1 false⟩⟩ := by decide
  have holds : shiftingCounter.status.holds (Condition.ofWord 0xE0FF011F) = true := by decide
  obtain ⟨after, executed⟩ : ∃ after, shiftingCounter.execute 0xE0FF011F = .ok (after, .next) := ⟨_, rfl⟩
  obtain ⟨result, leaves⟩ := (execute_dataProcessing decoded holds).2 after .next executed
  have value : (result.toNat : Int) = (0x100C0 - 0x100C - (1 - 0)) % 0x100000000 := leaves.computed
  have word : result = 0x100C0 - 0x100C - 1 := by
    refine BitVec.eq_of_toNat_eq ?_
    rw [show (0x100C0 - 0x100C - 1 : Word).toNat = 0xF0B3 from rfl]
    omega
  refine ⟨after, executed, ?_, (leaves.carries rfl).trans ?_, (leaves.overflows rfl).trans ?_⟩
  · rw [← word]
    exact leaves.registers
  · decide
  · decide

end Machine

end Arm32
