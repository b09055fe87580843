import Arm32.Proofs.Arithmetic.Limbs

/-! Arithmetic on numbers of any number of words, by one instruction for each limb. The first of them starts without a
carry, or without a borrow, and every other one takes the carry flag that the one before has left. -/

namespace Arm32

/-- An instruction on two limbs and the state that it is carried out in, save for the status register: that one is left
by the instruction on the limbs below. -/
structure Stage where
  machine : Machine
  word : Word
  fields : DataProcessing

namespace Stage

/-- The instruction does an operation on two limbs and sets the flags. What the limbs are does not depend on flags. -/
structure Combines (stage : Stage) (op : AluOp) (limb : Word × Word) : Prop where
  decoded : Instruction.decode stage.word = .dataProcessing stage.fields
  always : Condition.ofWord stage.word = .al
  operation : stage.fields.op = op
  sets : stage.fields.setFlags = true
  apart : stage.fields.rd ≠ Reg.pc
  first : stage.machine.operand stage.fields.rn (Machine.firstAhead stage.fields.operand) = limb.1
  second : ∀ status, ∃ carry, { stage.machine with status }.operand2 stage.fields.operand = .ok ⟨limb.2, carry⟩

/-- One operation on the lowest limbs, and another one on all limbs above. -/
def Chains (lowest upper : AluOp) : List Stage → List (Word × Word) → Prop
  | stage :: stages, limb :: limbs =>
    stage.Combines lowest limb ∧ List.Forall₂ (fun stage limb => stage.Combines upper limb) stages limbs
  | _, _ => False

/-- Carries the instructions out one after the other, for the status register after the last of them and for what each
has put into its destination. -/
def run (status : Psr) : List Stage → Except Refusal (Psr × List Word)
  | [] => .ok (status, [])
  | stage :: rest => do
    let (after, _) ← { stage.machine with status }.execute stage.word
    let (last, results) ← run after.status rest
    return (last, after.read stage.fields.rd :: results)

variable {stage : Stage} {stages : List Stage} {op lowest upper : AluOp} {limb : Word × Word}
  {limbs : List (Word × Word)} {status : Psr} {sum : Sum}

theorem Combines.executes (combines : stage.Combines op limb) (writes : op.isTest = false)
    (computes : op.compute limb.1 limb.2 status.carry = .arithmetic sum) :
    ∃ after, { stage.machine with status }.execute stage.word = .ok (after, .next) ∧
      after.status = status.setArithmetic sum ∧ after.read stage.fields.rd = sum.result := by
  obtain ⟨carry, second⟩ := combines.second status
  have holds : status.holds (Condition.ofWord stage.word) = true := by
    rw [combines.always]
    rfl
  have permitted : Machine.checkFlagBit stage.fields = .ok () := by
    rw [Machine.checkFlagBit, combines.operation, writes, combines.sets, beq_eq_false_iff_ne.mpr combines.apart]
    rfl
  have result : stage.fields.result { stage.machine with status } ⟨limb.2, carry⟩ = .arithmetic sum := by
    rw [DataProcessing.result, combines.operation]
    exact (congrArg (op.compute · limb.2 status.carry) combines.first).trans computes
  have done := stage.fields.done_eq { stage.machine with status } ⟨limb.2, carry⟩
  simp only [result, combines.operation, writes, combines.sets, if_true, if_false, Bool.false_eq_true] at done
  refine ⟨_, ?_, congrArg Machine.status done, ?_⟩
  · rw [@Machine.execute_of_holds { stage.machine with status } stage.word holds, combines.decoded]
    show Machine.dataProcessing _ stage.fields = _
    rw [Machine.dataProcessing_of_operand2 permitted second, ← stage.fields.done_flow _ ⟨limb.2, carry⟩ combines.apart]
  · rw [done]
    exact (Registers.read_write _ _ _ _).trans (if_pos rfl)

/-- An operation that is carried out by the adder, with the second operand as it is or complemented. -/
def Adds (op : AluOp) (carryIn : Bool → Bool) (addend : Word → Word) : Prop :=
  op.isTest = false ∧
    ∀ first second carry, op.compute first second carry = .arithmetic (Adder.add first (addend second) (carryIn carry))

variable {carryIn : Bool → Bool} {addend : Word → Word} {carry : Bool}

/-- One more limb in front. -/
theorem run_cons (combines : stage.Combines op limb) (adds : Adds op carryIn addend) {last : Psr} {results : List Word}
    (rest : run (status.setArithmetic (Adder.add limb.1 (addend limb.2) (carryIn status.carry))) stages =
      .ok (last, results)) :
    run status (stage :: stages) =
      .ok (last, (Adder.add limb.1 (addend limb.2) (carryIn status.carry)).result :: results) := by
  obtain ⟨after, executed, left, read⟩ := combines.executes adds.1 (adds.2 limb.1 limb.2 status.carry)
  rw [run, executed]
  show (run after.status stages >>= _) = _
  rw [left, rest, ← read]
  rfl

/-- Each operation goes on with the carry flag of the one before. -/
theorem run_uppers (adds : Adds upper id addend)
    (combined : List.Forall₂ (fun stage limb => stage.Combines upper limb) stages limbs) (status : Psr) :
    run status stages =
      .ok (Adder.flagged status status.carry (limbs.map (Prod.map id addend)),
        Adder.results status.carry (limbs.map (Prod.map id addend))) := by
  induction combined generalizing status with
  | nil => rfl
  | cons combines _ ih =>
      rw [run_cons combines adds (ih _), List.map_cons, Adder.flagged_cons, Adder.results_cons, Psr.carry_setArithmetic]
      rfl

theorem run_of_chains (addsLowest : Adds lowest (fun _ => carry) addend) (addsUpper : Adds upper id addend)
    (chains : Chains lowest upper stages limbs) (status : Psr) :
    run status stages =
      .ok (Adder.flagged status carry (limbs.map (Prod.map id addend)),
        Adder.results carry (limbs.map (Prod.map id addend))) := by
  cases stages with
  | nil => cases chains
  | cons stage stages =>
      cases limbs with
      | nil => cases chains
      | cons limb limbs =>
          rw [run_cons chains.1 addsLowest (run_uppers addsUpper chains.2 _), List.map_cons, Adder.flagged_cons,
            Adder.results_cons, Psr.carry_setArithmetic]
          rfl

/-- A chain of additions gives the sum of two numbers of any length, with its flags, and a chain of subtractions gives
the difference. After it the carry says that nothing was borrowed, and sign and overflow together how the numbers
compare. -/
theorem run_carryChain (status : Psr) (stages : List Stage) (limbs : List (Word × Word)) :
    (Chains .add .adc stages limbs →
      ∃ last results, run status stages = .ok (last, results) ∧ results.length = limbs.length ∧
        Limbs.value results =
          (Limbs.value (limbs.map Prod.fst) + Limbs.value (limbs.map Prod.snd)) % Limbs.bound limbs.length ∧
        last.carry =
          decide (Limbs.bound limbs.length ≤ Limbs.value (limbs.map Prod.fst) + Limbs.value (limbs.map Prod.snd)) ∧
        last.negative = decide (Limbs.signed results < 0) ∧
        last.overflow =
          decide (¬ Limbs.FitsSigned limbs.length
            (Limbs.signed (limbs.map Prod.fst) + Limbs.signed (limbs.map Prod.snd)))) ∧
    (Chains .sub .sbc stages limbs →
      ∃ last results, run status stages = .ok (last, results) ∧ results.length = limbs.length ∧
        (Limbs.value results : Int) =
          (Limbs.value (limbs.map Prod.fst) - Limbs.value (limbs.map Prod.snd)) % Limbs.bound limbs.length ∧
        last.carry = decide (Limbs.value (limbs.map Prod.snd) ≤ Limbs.value (limbs.map Prod.fst)) ∧
        (last.negative != last.overflow) =
          decide (Limbs.signed (limbs.map Prod.fst) < Limbs.signed (limbs.map Prod.snd))) := by
  cases limbs with
  | nil => cases stages <;> exact ⟨False.elim, False.elim⟩
  | cons limb rest =>
      constructor
      · intro chains
        have adds : Adds .add (fun _ => false) id := ⟨rfl, fun _ _ _ => rfl⟩
        have addsCarry : Adds .adc id id := ⟨rfl, fun _ _ _ => rfl⟩
        have ran := run_of_chains adds addsCarry chains status
        rw [Prod.map_id, List.map_id] at ran
        refine ⟨_, _, ran, Adder.length_results _ _, Adder.value_sum _, ?_, Adder.negative_flagged _ _ _ _, ?_⟩
        · exact (Adder.carry_flagged Psr.carry_setArithmetic rest).trans (Adder.carried_sum (limb :: rest))
        · have overflow := Adder.overflow_flagged status false limb rest
          rw [Adder.add_clear] at overflow
          exact overflow
      · intro chains
        have subtracts : Adds .sub (fun _ => true) (~~~·) := ⟨rfl, fun _ _ _ => rfl⟩
        have subtractsBorrow : Adds .sbc id (~~~·) := ⟨rfl, fun _ _ _ => rfl⟩
        have ran := run_of_chains subtracts subtractsBorrow chains status
        refine ⟨_, _, ran, ?_, Adder.value_difference _, ?_, Adder.negative_bne_overflow_difference _ _ _⟩
        · exact (Adder.length_results _ _).trans (Adder.length_complemented _)
        · exact (Adder.carry_flagged Psr.carry_setArithmetic (Adder.complemented rest)).trans
            (Adder.carried_difference (limb :: rest))

/-- An operation on registers 0 and 1, into register 0. -/
def ofRegisters (op : AluOp) (word first second : Word) : Stage :=
  { machine := (Machine.withoutMemory.write 0 first).write 1 second
    word
    fields := ⟨op, true, 0, 0, .register ⟨1, .lsl, .immediate 0⟩⟩ }

/-- Two limbs: one more than the greatest of the signed numbers, and one less than the lowest. -/
theorem run_carryChain_extremes :
    (∃ last results, run ⟨0⟩ [ofRegisters .add 0xE0900001 0xFFFFFFFF 1, ofRegisters .adc 0xE0B00001 0x7FFFFFFF 0] =
        .ok (last, results) ∧
      Limbs.value results = 0x8000000000000000 ∧ last.carry = false ∧ last.overflow = true) ∧
    ∃ last results, run ⟨0⟩ [ofRegisters .sub 0xE0500001 0 1, ofRegisters .sbc 0xE0D00001 0x80000000 0] =
        .ok (last, results) ∧
      (Limbs.value results : Int) = 0x7FFFFFFFFFFFFFFF ∧ last.carry = true ∧ (last.negative != last.overflow) = true := by
  have combines (op : AluOp) (word first second : Word)
      (decoded : Instruction.decode word = .dataProcessing (ofRegisters op word first second).fields)
      (always : Condition.ofWord word = .al) : (ofRegisters op word first second).Combines op (first, second) :=
    ⟨decoded, always, rfl, rfl, (by decide : (0 : Reg) ≠ Reg.pc), rfl, fun _ => ⟨_, rfl⟩⟩
  constructor
  · have chains : Chains .add .adc
        [ofRegisters .add 0xE0900001 0xFFFFFFFF 1, ofRegisters .adc 0xE0B00001 0x7FFFFFFF 0]
        [(0xFFFFFFFF, 1), (0x7FFFFFFF, 0)] :=
      ⟨combines _ _ _ _ rfl rfl, .cons (combines _ _ _ _ rfl rfl) .nil⟩
    obtain ⟨last, results, ran, -, value, carry, -, overflow⟩ := (run_carryChain ⟨0⟩ _ _).1 chains
    exact ⟨last, results, ran, value, carry.trans (by decide), overflow.trans (by decide)⟩
  · have chains : Chains .sub .sbc
        [ofRegisters .sub 0xE0500001 0 1, ofRegisters .sbc 0xE0D00001 0x80000000 0] [(0, 1), (0x80000000, 0)] :=
      ⟨combines _ _ _ _ rfl rfl, .cons (combines _ _ _ _ rfl rfl) .nil⟩
    obtain ⟨last, results, ran, -, value, carry, order⟩ := (run_carryChain ⟨0⟩ _ _).2 chains
    exact ⟨last, results, ran, value, carry.trans (by decide), order.trans (by decide)⟩

end Stage

end Arm32
