import Arm32.Emulator
import Arm32.Proofs.Encoding.Execution
import Arm32.Proofs.Safety.Vfp

/-! Which refusals can come up. Some rules are kept by every instruction that is read from a word: a test sets the
flags, a register shift of a second operand has its reserved bit clear, an offset is not shifted by a register, a branch
goes by whole words. Such a rule is never broken, and of the slots that do not exist only the one after the last is ever
asked for, by a list that is too long. -/

namespace Arm32

/-! ### What encodings guarantee -/

def ShiftAmount.isReserved : ShiftAmount → Bool
  | immediate _ => false
  | register _ reserved => reserved

def Operand2.isReserved : Operand2 → Bool
  | immediate _ _ => false
  | register operand => operand.amount.isReserved

def TransferOffset.isShiftedByRegister : TransferOffset → Bool
  | immediate _ => false
  | register operand => operand.amount.isRegister

namespace Instruction

/-- The rules that no word breaks, whatever instruction it stands for. -/
def IsEncoded : Instruction → Prop
  | dataProcessing fields => (fields.op.isTest = true → fields.setFlags = true) ∧ fields.operand.isReserved = false
  | singleTransfer fields => fields.offset.isShiftedByRegister = false
  | branch _ offset => offset.toNat % 4 = 0
  | _ => True

variable {word : Word}

theorem isTest_iff (code : BitVec 4) : (AluOp.ofCode code).isTest = true ↔ code.extractLsb' 2 2 = 0b10 := by
  revert code
  decide

/-- A test that sets no flags is read as a move of the status register. -/
theorem setFlags_of_isTest (notMove : isPsrTransfer word = false) (test : (dataProcessingOf word).op.isTest = true) :
    word.getLsbD 20 = true := by
  have upper : (word.extractLsb' 21 4).extractLsb' 2 2 = word.extractLsb' 23 2 := by
    ext place within
    simp [BitVec.getLsbD_extractLsb', ← Nat.add_assoc]
    omega
  have opcode : word.extractLsb' 23 2 = 0b10 := by
    rw [← upper]
    exact (isTest_iff _).mp test
  simpa [isPsrTransfer, opcode] using notMove

theorem isReserved_ofWord (immediate : word.getLsbD 25 = false) :
    (Operand2.ofWord word).isReserved = (word.getLsbD 7 && word.getLsbD 4) := by
  rw [Operand2.ofWord, if_neg (by simpa using immediate), Bool.and_comm]
  show (ShiftedRegister.ofWord word).amount.isReserved = _
  unfold ShiftedRegister.ofWord
  cases word.getLsbD 4 <;> rfl

/-- With the reserved bit set, a register shift is read as a multiply, a swap or a halfword transfer. -/
theorem not_isReserved_operand (group : word.extractLsb' 26 2 = 0) (notHalfword : isHalfwordTransfer word = false) :
    (Operand2.ofWord word).isReserved = false := by
  cases immediate : word.getLsbD 25 with
  | true => rw [Operand2.ofWord, if_pos immediate, Operand2.isReserved]
  | false =>
      have low : word.getLsbD 26 = false := by simpa using congrArg (·.getLsbD 0) group
      have high : word.getLsbD 27 = false := by simpa using congrArg (·.getLsbD 1) group
      have clear : word.extractLsb' 25 3 = 0b000 := by
        ext place within
        obtain rfl | rfl | rfl : place = 0 ∨ place = 1 ∨ place = 2 := by omega
        · simpa using immediate
        · simpa using low
        · simpa using high
      rw [isReserved_ofWord immediate]
      simpa only [isHalfwordTransfer, clear, BEq.rfl, Bool.true_and] using notHalfword

theorem isEncoded_decodeArithmetic (group : word.extractLsb' 26 2 = 0) : (decodeArithmetic word).IsEncoded := by
  unfold decodeArithmetic
  by_cases halfword : isHalfwordTransfer word = true
  · grind [IsEncoded]
  · by_cases move : isPsrTransfer word = true
    · grind [IsEncoded]
    · have encoded : (dataProcessing (dataProcessingOf word)).IsEncoded :=
        ⟨setFlags_of_isTest (by simpa using move), not_isReserved_operand group (by simpa using halfword)⟩
      grind [IsEncoded]

theorem isShiftedByRegister_ofWord (undefined : (word.getLsbD 25 && word.getLsbD 4) = false) :
    (TransferOffset.ofWord word).isShiftedByRegister = false := by
  unfold TransferOffset.ofWord
  cases register : word.getLsbD 25 with
  | false => rfl
  | true =>
      have immediate : word.getLsbD 4 = false := by simpa [register] using undefined
      show (ShiftedRegister.ofWord word).amount.isRegister = false
      rw [ShiftedRegister.ofWord, immediate]
      rfl

theorem isEncoded_decodeSingleTransfer (word : Word) : (decodeSingleTransfer word).IsEncoded := by
  unfold decodeSingleTransfer
  cases undefined : word.getLsbD 25 && word.getLsbD 4 with
  | true => trivial
  | false => exact isShiftedByRegister_ofWord undefined

theorem isEncoded_decode (word : Word) : (decode word).IsEncoded := by
  unfold decode
  split
  case h_1 group => exact isEncoded_decodeArithmetic (BitVec.eq_of_toNat_eq group)
  case h_2 => exact isEncoded_decodeSingleTransfer word
  case h_3 =>
      unfold decodeBlockOrBranch
      split
      · exact branchBytes_mod_four word
      · trivial
  case h_4 =>
      unfold decodeCoprocessor
      split <;> trivial

/-- A list of slots that runs past the last one. -/
def listsPastLastSlot : Instruction → Bool
  | vfp (.loadStore fields) => fields.mode.isMultiple && 32 < fields.firstSlot + fields.offset.toNat
  | _ => false

end Instruction

/-! ### Documented refusals -/

namespace Refusal

/-- A refusal by a rule that words do break, or by memory. -/
def IsOrdinary : Refusal → Prop
  | noSuchRegister _ | testWithoutFlags _ | reservedShiftBit | offsetShiftedByRegister | misalignedTarget _
  | noSuchSlot _ | countOverflow => False
  | _ => True

/-- The refusals that an instruction can meet, if it keeps the rules of the encodings. -/
def IsMetBy (instruction : Instruction) (refusal : Refusal) : Prop :=
  refusal.IsOrdinary ∨ refusal = .noSuchSlot 32 ∧ instruction.listsPastLastSlot = true

/-- The refusals that can stop a step when this is the word it executes. -/
def IsDocumented (word? : Option Word) (refusal : Refusal) : Prop :=
  refusal.IsOrdinary ∨
    refusal = .noSuchSlot 32 ∧ ∃ word ∈ word?, (Instruction.decode word).listsPastLastSlot = true

end Refusal

section

variable {α β : Type} {allowed permitted : Refusal → Prop}

theorem RefusesOnly.mono {result : Except Refusal α} (only : RefusesOnly allowed result)
    (wider : ∀ refusal, allowed refusal → permitted refusal) : RefusesOnly permitted result :=
  fun refusal refused => wider refusal (only refusal refused)

theorem RefusesOnly.bind_of_refused {result : Except Refusal α} {next : α → Except Refusal β}
    (only : RefusesOnly allowed result) (refused : Refused result) : RefusesOnly allowed (result >>= next) := by
  obtain ⟨refusal, rfl⟩ := refused
  exact refusesOnly_error.mpr (only refusal rfl)

theorem RefusesOnly.require {rule : Bool} {otherwise : Refusal} (ordinary : otherwise.IsOrdinary) :
    RefusesOnly Refusal.IsOrdinary (require rule otherwise) := by
  cases rule with
  | false => exact refusesOnly_error.mpr ordinary
  | true => exact refusesOnly_ok ()

theorem RefusesOnly.require_bind {rule : Bool} {otherwise : Refusal} {next : Unit → Except Refusal α}
    (ordinary : otherwise.IsOrdinary) (rest : RefusesOnly Refusal.IsOrdinary (next ())) :
    RefusesOnly Refusal.IsOrdinary (Arm32.require rule otherwise >>= next) :=
  .bind (.require ordinary) fun _ => rest

theorem RefusesOnly.ordinary {result : Except Refusal α} (access : RefusesOnly Refusal.IsAccess result) :
    RefusesOnly Refusal.IsOrdinary result := by
  refine access.mono ?_
  rintro refusal ⟨fault, rfl⟩
  trivial

end

namespace Machine

open Vfp (Slot)

variable {machine : Machine}

theorem shifted_refuses_ordinary {operand : ShiftedRegister} (clear : operand.amount.isReserved = false) :
    RefusesOnly Refusal.IsOrdinary (machine.shifted operand) := by
  cases amount : operand.amount with
  | immediate places =>
      simp only [shifted, amount]
      exact refusesOnly_ok _
  | register rs reserved =>
      have kept : (!reserved) = true := by
        rw [amount] at clear
        exact congrArg not clear
      simp only [shifted, amount]
      refine .require_bind trivial ?_
      rw [require_bind_of_true kept]
      exact refusesOnly_pure _

theorem operand2_refuses_ordinary {operand : Operand2} (clear : operand.isReserved = false) :
    RefusesOnly Refusal.IsOrdinary (machine.operand2 operand) := by
  cases operand with
  | immediate base rotate => exact refusesOnly_ok _
  | register operand => exact shifted_refuses_ordinary clear

theorem checkFlagBit_refuses_ordinary {fields : DataProcessing} (tests : fields.op.isTest = true → fields.setFlags = true) :
    RefusesOnly Refusal.IsOrdinary (checkFlagBit fields) := by
  cases test : fields.op.isTest with
  | false =>
      rw [checkFlagBit, if_neg (by simp [test])]
      exact .require trivial
  | true =>
      rw [checkFlagBit, if_pos test, tests test]
      exact refusesOnly_ok ()

theorem dataProcessing_refuses_ordinary {fields : DataProcessing}
    (tests : fields.op.isTest = true → fields.setFlags = true) (clear : fields.operand.isReserved = false) :
    RefusesOnly Refusal.IsOrdinary (machine.dataProcessing fields) := by
  refine .bind (checkFlagBit_refuses_ordinary tests) fun _ => ?_
  refine .bind (operand2_refuses_ordinary clear) fun second => ?_
  cases fields.op.isTest <;> exact refusesOnly_pure _

theorem flagRegister_refuses_ordinary {rm : Reg} : RefusesOnly Refusal.IsOrdinary (machine.flagRegister rm) :=
  .require_bind trivial (refusesOnly_pure _)

theorem psrTransfer_refuses_ordinary {op : PsrOp} : RefusesOnly Refusal.IsOrdinary (machine.psrTransfer op) := by
  cases op with
  | read rd => exact .require_bind trivial (refusesOnly_pure _)
  | write rm => exact .bind flagRegister_refuses_ordinary fun value => refusesOnly_pure _
  | writeFlags source =>
      cases source with
      | immediate field => exact refusesOnly_ok _
      | register rm => exact .bind flagRegister_refuses_ordinary fun value => refusesOnly_pure _
  | undefined => exact refusesOnly_error.mpr trivial

theorem multiply_refuses_ordinary {fields : Multiply} :
    RefusesOnly Refusal.IsOrdinary (machine.multiply fields) := by
  refine .require_bind trivial ?_
  refine .require_bind trivial ?_
  exact .require_bind trivial (refusesOnly_pure _)

theorem multiplyLong_refuses_ordinary {fields : MultiplyLong} :
    RefusesOnly Refusal.IsOrdinary (machine.multiplyLong fields) := by
  refine .require_bind trivial ?_
  refine .require_bind trivial ?_
  exact .require_bind trivial (refusesOnly_pure _)

theorem countLeadingZeros_refuses_ordinary {rd rm : Reg} :
    RefusesOnly Refusal.IsOrdinary (machine.countLeadingZeros rd rm) :=
  .require_bind trivial (refusesOnly_pure _)

theorem swap_refuses_ordinary {fields : Swap} : RefusesOnly Refusal.IsOrdinary (machine.swap fields) := by
  refine .require_bind trivial ?_
  cases fields.quantity with
  | byte =>
      refine .bind (machine.loadByte_refuses_access _).ordinary fun loaded => ?_
      exact .bind (machine.storeByte_refuses_access _ _).ordinary fun after => refusesOnly_pure _
  | word =>
      refine .bind (machine.loadWord_refuses_access _).ordinary fun loaded => ?_
      exact .bind (machine.storeWord_refuses_access _ _).ordinary fun after => refusesOnly_pure _

/-! ### Transfers -/

theorem transferAddress_refuses_ordinary {mode : Addressing} {rn : Reg} {amount : Word} :
    RefusesOnly Refusal.IsOrdinary (machine.transferAddress mode rn amount) := by
  unfold transferAddress
  cases mode.indexing with
  | pre =>
      cases mode.writeBack with
      | true => exact .require_bind trivial (refusesOnly_pure _)
      | false => exact refusesOnly_ok _
  | post =>
      refine .require_bind trivial ?_
      exact .require_bind trivial (refusesOnly_pure _)

theorem transferOffset_refuses_ordinary {offset : TransferOffset} (plain : offset.isShiftedByRegister = false) :
    RefusesOnly Refusal.IsOrdinary (machine.transferOffset offset) := by
  cases offset with
  | immediate offset => exact refusesOnly_ok _
  | register operand =>
      have kept : (!operand.amount.isRegister) = true := congrArg not plain
      have clear : operand.amount.isReserved = false := by
        cases amount : operand.amount with
        | immediate places => rfl
        | register rs reserved => simp [amount, ShiftAmount.isRegister] at kept
      rw [transferOffset, require_bind_of_true kept]
      refine .require_bind trivial ?_
      exact .bind (shifted_refuses_ordinary clear) fun offset => refusesOnly_pure _

theorem singleTransfer_refuses_ordinary {fields : SingleTransfer} (plain : fields.offset.isShiftedByRegister = false) :
    RefusesOnly Refusal.IsOrdinary (machine.singleTransfer fields) := by
  refine .bind (transferOffset_refuses_ordinary plain) fun amount => ?_
  refine .bind transferAddress_refuses_ordinary ?_
  rintro ⟨machine, address⟩
  cases fields.transfer <;> cases fields.quantity
  case load.byte => exact .bind (machine.loadByte_refuses_access _).ordinary fun value => refusesOnly_pure _
  case load.word => exact .bind (machine.loadWord_refuses_access _).ordinary fun value => refusesOnly_pure _
  case store.byte => exact .bind (machine.storeByte_refuses_access _ _).ordinary fun after => refusesOnly_pure _
  case store.word => exact .bind (machine.storeWord_refuses_access _ _).ordinary fun after => refusesOnly_pure _

theorem halfwordOffset_refuses_ordinary {offset : HalfwordOffset} :
    RefusesOnly Refusal.IsOrdinary (machine.halfwordOffset offset) := by
  cases offset with
  | immediate offset => exact refusesOnly_ok _
  | register rm => exact .require_bind trivial (refusesOnly_pure _)

theorem halfwordTransfer_refuses_ordinary {fields : HalfwordTransfer} :
    RefusesOnly Refusal.IsOrdinary (machine.halfwordTransfer fields) := by
  refine .require_bind trivial ?_
  refine .bind halfwordOffset_refuses_ordinary fun amount => ?_
  refine .bind transferAddress_refuses_ordinary ?_
  rintro ⟨machine, address⟩
  cases fields.transfer <;> cases fields.kind
  case load.unsignedHalfword | load.signedHalfword =>
    exact .bind (machine.loadHalfword_refuses_access _).ordinary fun value => refusesOnly_pure _
  case load.signedByte => exact .bind (machine.loadByte_refuses_access _).ordinary fun value => refusesOnly_pure _
  case store.unsignedHalfword =>
    exact .bind (machine.storeHalfword_refuses_access _ _).ordinary fun after => refusesOnly_pure _
  all_goals exact refusesOnly_error.mpr trivial

theorem storeBlock_refuses_ordinary {mode : Addressing} {address : Word} {registers : List Reg} :
    RefusesOnly Refusal.IsOrdinary (machine.storeBlock mode address registers) := by
  induction registers generalizing machine address with
  | nil => exact refusesOnly_ok _
  | cons reg rest ih =>
      refine .require_bind trivial ?_
      exact .bind (machine.storeWord_refuses_access _ _).ordinary fun after => ih

theorem blockTransfer_refuses_ordinary {fields : BlockTransfer} :
    RefusesOnly Refusal.IsOrdinary (machine.blockTransfer fields) := by
  refine .require_bind trivial ?_
  refine .require_bind trivial ?_
  cases fields.transfer with
  | load => exact .bind loadBlock_refuses_access.ordinary fun loaded => refusesOnly_pure _
  | store =>
      refine .bind storeBlock_refuses_ordinary ?_
      rintro ⟨after, last⟩
      cases fields.mode.writeBack with
      | false => exact refusesOnly_pure _
      | true => exact .require_bind trivial (refusesOnly_pure _)

/-! ### Floating point -/

theorem number?_refuses {slot : Nat} (bound : slot ≤ 32) :
    RefusesOnly (· = .noSuchSlot 32) (Slot.number? slot) := by
  intro refusal refused
  by_cases inside : slot < 32
  · rw [Slot.number?, dif_pos inside] at refused
    cases refused
  · rw [Slot.number?, dif_neg inside] at refused
    cases refused
    rw [Nat.le_antisymm bound (Nat.le_of_not_lt inside)]

theorem transferSlot_refuses {transfer : Transfer} {address : Word} {slot : Nat} (bound : slot ≤ 32) :
    RefusesOnly (fun refusal => refusal.IsOrdinary ∨ refusal = .noSuchSlot 32)
      (machine.transferSlot transfer address slot) := by
  have number : RefusesOnly (fun refusal => refusal.IsOrdinary ∨ refusal = .noSuchSlot 32)
      (Slot.number? slot) := (number?_refuses bound).mono fun _ => Or.inr
  cases transfer with
  | load =>
      refine .bind ((machine.loadWord_refuses_access _).ordinary.mono fun _ => Or.inl) fun value => ?_
      exact .bind number fun target => refusesOnly_pure _
  | store => exact .bind number fun source => (machine.storeWord_refuses_access _ _).ordinary.mono fun _ => Or.inl

theorem transferSlot_refused {transfer : Transfer} {address : Word} {slot : Nat} (past : 32 ≤ slot) :
    Refused (machine.transferSlot transfer address slot) := by
  have number : Refused (Slot.number? slot) := Vfp.refused_number?_iff.mpr past
  cases transfer with
  | load => exact .bind_right fun value => number.bind_left
  | store => exact number.bind_left

theorem transferFrom_refuses {transfer : Transfer} {address : Word} {slot count : Nat} (bound : slot ≤ 32) :
    RefusesOnly (fun refusal => refusal.IsOrdinary ∨ refusal = .noSuchSlot 32)
      (machine.transferFrom transfer address slot count) := by
  induction count generalizing machine address slot with
  | zero =>
      rw [transferFrom_zero]
      exact refusesOnly_ok _
  | succ count ih =>
      rw [transferFrom_succ]
      -- The walk stops at the first slot that does not exist, so it never gets to a later one.
      by_cases inside : slot < 32
      · exact .bind (transferSlot_refuses bound) fun after => ih inside
      · exact .bind_of_refused (transferSlot_refuses bound) (transferSlot_refused (Nat.le_of_not_lt inside))

theorem transferSlots_refuses {transfer : Transfer} {address : Word} {slot : Slot} {count : Nat} :
    RefusesOnly (fun refusal => refusal.IsOrdinary ∨ refusal = .noSuchSlot 32 ∧ 32 < slot.toNat + count)
      (machine.transferSlots transfer address slot count) := by
  by_cases inside : slot.toNat + count ≤ 32
  · exact (transferSlots_refuses_access inside).ordinary.mono fun _ => Or.inl
  · -- The list is too long, whether or not memory refuses before its end is reached.
    have walk : RefusesOnly (fun refusal => refusal.IsOrdinary ∨ refusal = .noSuchSlot 32)
        (machine.transferSlots transfer address slot count) := by
      have bound : slot.toNat ≤ 32 := Nat.le_of_lt slot.isLt
      cases transfer with
      | load => exact @transferFrom_refuses machine .load _ _ _ bound
      | store => exact @transferFrom_refuses machine .store _ _ _ bound
    exact walk.mono fun refusal => Or.imp_right fun last => ⟨last, Nat.lt_of_not_le inside⟩

theorem writeBackBase_refuses_ordinary {rn : Reg} {value : Word} :
    RefusesOnly Refusal.IsOrdinary (machine.writeBackBase rn value) :=
  .require_bind trivial (refusesOnly_pure _)

theorem vfpLoadStore_refuses {fields : Vfp.LoadStore} :
    RefusesOnly (Refusal.IsMetBy (.vfp (.loadStore fields))) (machine.vfpLoadStore fields) := by
  have listed (machine : Machine) (address : Word) (multiple : fields.mode.isMultiple = true) :
      RefusesOnly (Refusal.IsMetBy (.vfp (.loadStore fields)))
        (machine.transferSlots fields.transfer address (fields.fd.aligned fields.precision) fields.offset.toNat) := by
    refine transferSlots_refuses.mono fun refusal => Or.imp_right fun last => ⟨last.1, ?_⟩
    rw [Instruction.listsPastLastSlot, multiple, Bool.true_and]
    exact decide_eq_true last.2
  have single (machine : Machine) (address : Word) :
      RefusesOnly Refusal.IsOrdinary
        (machine.transferSlots fields.transfer address (fields.fd.aligned fields.precision) fields.precision.words) :=
    (transferSlots_refuses_access (Vfp.aligned_add_words_le fields.fd fields.precision)).ordinary
  unfold vfpLoadStore
  cases mode : fields.mode with
  | unindexed => exact listed _ _ (by rw [mode]; rfl)
  | increment | decrement =>
      refine .bind (listed _ _ (by rw [mode]; rfl)) fun after => ?_
      exact writeBackBase_refuses_ordinary.mono fun _ => Or.inl
  | positiveOffset | negativeOffset => exact (single _ _).mono fun _ => Or.inl
  | undefined mode => exact refusesOnly_error.mpr (.inl trivial)

theorem process_refuses_ordinary {registers : Vfp.Registers} {fields : Vfp.DataProcessing} :
    RefusesOnly Refusal.IsOrdinary (registers.process fields) := by
  unfold Vfp.Registers.process
  cases fields.op with
  | arithmetic op => exact refusesOnly_ok _
  | undefined opcode => exact refusesOnly_error.mpr trivial
  | extension op =>
      cases op with
      | unary op | scalar op => exact refusesOnly_ok _
      | undefined selector => exact refusesOnly_error.mpr trivial

theorem vfpRegisterTransfer_refuses_ordinary {fields : Vfp.RegisterTransfer} :
    RefusesOnly Refusal.IsOrdinary (machine.vfpRegisterTransfer fields) := by
  unfold vfpRegisterTransfer
  by_cases flagMove : fields.op = .fmrx ∧ fields.rd = Reg.pc
  · rw [if_pos flagMove]
    exact .require_bind trivial (refusesOnly_pure _)
  · rw [if_neg flagMove]
    refine .require_bind trivial ?_
    cases fields.op with
    | fmxr =>
        refine .bind ?_ fun vfp => refusesOnly_pure _
        cases Vfp.SystemRegister.ofIndex fields.fn.toNat with
        | unknown index => exact refusesOnly_error.mpr trivial
        | fpsid | fpscr | fpexc => exact refusesOnly_ok _
    | fmrx =>
        refine .bind ?_ fun value => refusesOnly_pure _
        cases Vfp.SystemRegister.ofIndex fields.fn.toNat with
        | unknown index => exact refusesOnly_error.mpr trivial
        | fpsid | fpscr | fpexc => exact refusesOnly_ok _
    | undefined opcode => exact refusesOnly_error.mpr trivial
    | fmsr | fmrs | fmdlr | fmrdl | fmdhr | fmrdh => exact refusesOnly_pure _

/-! ### Any instruction -/

theorem executeVfp_refuses {instruction : Vfp.Instruction} :
    RefusesOnly (Refusal.IsMetBy (.vfp instruction)) (machine.executeVfp instruction) := by
  cases instruction with
  | dataProcessing fields =>
      refine .bind (process_refuses_ordinary.mono fun _ => Or.inl) fun vfp => ?_
      exact refusesOnly_pure _
  | loadStore fields => exact vfpLoadStore_refuses
  | registerTransfer fields => exact vfpRegisterTransfer_refuses_ordinary.mono fun _ => Or.inl

/-- An instruction that keeps the rules of the encodings, executed where instructions stand. -/
theorem perform_refuses {word : Word} {instruction : Instruction} (encoded : instruction.IsEncoded)
    (aligned : machine.registers.programCounter.toNat % 4 = 0) :
    RefusesOnly (Refusal.IsMetBy instruction) (machine.perform word instruction) := by
  cases instruction with
  | vfp instruction => exact executeVfp_refuses.map
  | branch link offset =>
      refine .of_not_refused (not_refused_branch ?_)
      have wordwise : offset.toNat % 4 = 0 := encoded
      simp only [prefetch, BitVec.toNat_add, BitVec.reduceToNat]
      omega
  | dataProcessing fields => exact (dataProcessing_refuses_ordinary encoded.1 encoded.2).mono fun _ => Or.inl
  | psrTransfer saved op => exact psrTransfer_refuses_ordinary.map.mono fun _ => Or.inl
  | multiply fields => exact multiply_refuses_ordinary.map.mono fun _ => Or.inl
  | multiplyLong fields => exact multiplyLong_refuses_ordinary.map.mono fun _ => Or.inl
  | countLeadingZeros rd rm => exact countLeadingZeros_refuses_ordinary.map.mono fun _ => Or.inl
  | swap fields => exact swap_refuses_ordinary.map.mono fun _ => Or.inl
  | halfwordTransfer fields => exact halfwordTransfer_refuses_ordinary.mono fun _ => Or.inl
  | singleTransfer fields => exact (singleTransfer_refuses_ordinary encoded).mono fun _ => Or.inl
  | blockTransfer fields => exact blockTransfer_refuses_ordinary.mono fun _ => Or.inl
  | undefined => exact refusesOnly_error.mpr (.inl trivial)
  | coprocessor => exact refusesOnly_error.mpr (.inl trivial)

theorem execute_refuses_documented {word : Word} (aligned : machine.registers.programCounter.toNat % 4 = 0) :
    RefusesOnly (Refusal.IsDocumented (some word)) (machine.execute word) := by
  unfold execute
  cases machine.status.holds (Condition.ofWord word) with
  | false => exact refusesOnly_ok _
  | true =>
      have performed := @perform_refuses machine word _ (Instruction.isEncoded_decode word) aligned
      exact performed.mono fun refusal => Or.imp_right fun last => ⟨last.1, word, rfl, last.2⟩

/-- Only a word boundary is fetched from. -/
theorem aligned_of_fetch {word? : Option Word} (fetched : machine.fetch = .ok word?) :
    machine.registers.programCounter.toNat % 4 = 0 := by
  by_cases aligned : machine.registers.programCounter.toNat % 4 = 0
  · exact aligned
  · rw [fetch, require_bind_of_false (by simpa using aligned)] at fetched
    cases fetched

theorem fetch_refuses_ordinary : RefusesOnly Refusal.IsOrdinary machine.fetch := by
  refine .require_bind trivial ?_
  by_cases ended : machine.registers.programCounter = 0
  · rw [if_pos ended]
    exact refusesOnly_pure _
  · rw [if_neg ended]
    exact .bind (machine.loadWord_refuses_access _).ordinary fun word => refusesOnly_pure _

end Machine

end Arm32
