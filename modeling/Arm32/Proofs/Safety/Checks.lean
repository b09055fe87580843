import Mathlib.Algebra.Group.Nat.Defs
import Arm32.Bits
import Arm32.Refusal

/-! Computing with every intermediate step checked. A checked computation may break down where a plain one cannot: a
sum leaves its width, a bit or a field lies outside the word, a case comes up that was ruled out. A broken down
computation has no outcome at all, not even a refusal. -/

namespace Arm32

/-- A number that counts or indexes. -/
abbrev Index := BitVec 64

/-- A computation that ends in an answer, ends in an error, or breaks down. -/
abbrev Checked (ε α : Type) := ExceptT ε Option α

namespace Checked

variable {ε δ α β : Type}

def ofExcept (result : Except ε α) : Checked ε α := ExceptT.mk (some result)

@[simp] theorem run_ofExcept (result : Except ε α) : (ofExcept result).run = some result := rfl

@[simp] theorem ofExcept_ok (value : α) : (ofExcept (.ok value) : Checked ε α) = pure value := rfl

@[simp] theorem ofExcept_pure (value : α) : (ofExcept (pure value) : Checked ε α) = pure value := rfl

@[simp] theorem ofExcept_error (error : ε) : (ofExcept (.error error) : Checked ε α) = throw error := rfl

@[simp] theorem lift_except (result : Except ε α) : (liftM result : Checked ε α) = ofExcept result := rfl

@[simp] theorem lift_some (value : α) : (liftM (some value) : Checked ε α) = pure value := rfl

@[simp] theorem ofExcept_bind (result : Except ε α) (next : α → Except ε β) :
    ofExcept (result >>= next) = ofExcept result >>= fun value => ofExcept (next value) := by
  cases result <;> rfl

@[simp] theorem ofExcept_map (result : Except ε α) (function : α → β) :
    ofExcept (result.map function) = function <$> ofExcept result := by
  cases result <;> rfl

@[simp] theorem ofExcept_functor_map (result : Except ε α) (function : α → β) :
    ofExcept (function <$> result) = function <$> ofExcept result := by
  cases result <;> rfl

theorem ofExcept_ite (condition : Prop) [Decidable condition] (first second : Except ε α) :
    ofExcept (if condition then first else second) =
      if condition then ofExcept first else ofExcept second := by
  split <;> rfl

@[simp] theorem adapt_ofExcept (result : Except ε α) (function : ε → δ) :
    ExceptT.adapt function (ofExcept result) = ofExcept (result.mapError function) := by
  cases result <;> rfl

end Checked

theorem guard_of_true {condition : Prop} [Decidable condition] (holds : condition) :
    (guard condition : Option Unit) = some () := if_pos holds

theorem guard_bind_eq {α : Type} {condition : Prop} [Decidable condition] {work : Option α} {answer : α}
    (works : condition → work = some answer) :
    (do guard condition; work) = if condition then some answer else none := by
  by_cases holds : condition
  · rw [guard_of_true holds, if_pos holds]
    exact works holds
  · have stopped : (guard condition : Option Unit) = none := if_neg holds
    rw [stopped, if_neg holds]
    rfl

namespace Bits

variable {width : Nat} {first second : BitVec width}

def checkedAdd (first second : BitVec width) : Option (BitVec width) :=
  if BitVec.uaddOverflow first second then none else some (first + second)

def checkedSub (first second : BitVec width) : Option (BitVec width) :=
  if BitVec.usubOverflow first second then none else some (first - second)

def checkedMul (first second : BitVec width) : Option (BitVec width) :=
  if BitVec.umulOverflow first second then none else some (first * second)

/-- A two's complement number with its sign changed. The least number has no opposite. -/
def checkedNeg (value : BitVec width) : Option (BitVec width) :=
  if BitVec.negOverflow value then none else some (-value)

def checkedSignedAdd (first second : BitVec width) : Option (BitVec width) :=
  if BitVec.saddOverflow first second then none else some (first + second)

def checkedShiftLeft (value : BitVec width) (places : Nat) : Option (BitVec width) :=
  if places < width then some (value <<< places) else none

def checkedShiftRight (value : BitVec width) (places : Nat) : Option (BitVec width) :=
  if places < width then some (value >>> places) else none

def checkedSignedShiftRight (value : BitVec width) (places : Nat) : Option (BitVec width) :=
  if places < width then some (value.sshiftRight places) else none

/-- A value that is used as one of `count` bits. -/
def narrow? (count : Nat) (value : BitVec width) : Option (BitVec count) :=
  if value.toNat < 2 ^ count then some (value.setWidth count) else none

/-- A field of `count` bits, read as a whole word and used as one of its own width. -/
def checkedField (value : BitVec width) (first count : Nat) : Option (BitVec count) := do
  let field ← field? value first (first + count - 1)
  narrow? count field

theorem checkedAdd_eq (fits : first.toNat + second.toNat < 2 ^ width) :
    checkedAdd first second = some (first + second) := by
  simp [checkedAdd, BitVec.uaddOverflow, fits]

example : checkedAdd (0xffffffff : Word) 1 = none := by decide

theorem checkedSub_eq (ordered : second.toNat ≤ first.toNat) :
    checkedSub first second = some (first - second) := by
  simp [checkedSub, BitVec.usubOverflow, ordered]

theorem checkedMul_eq (fits : first.toNat * second.toNat < 2 ^ width) :
    checkedMul first second = some (first * second) := by
  simp [checkedMul, BitVec.umulOverflow, fits]

theorem checkedAdd_ofNat {first second : Nat} (fits : first + second < 2 ^ width) :
    checkedAdd (BitVec.ofNat width first) (BitVec.ofNat width second) = some (BitVec.ofNat width (first + second)) := by
  have firstFits : first % 2 ^ width = first := Nat.mod_eq_of_lt (by omega)
  have secondFits : second % 2 ^ width = second := Nat.mod_eq_of_lt (by omega)
  rw [BitVec.ofNat_add]
  exact checkedAdd_eq (by rwa [BitVec.toNat_ofNat, BitVec.toNat_ofNat, firstFits, secondFits])

theorem checkedSub_ofNat {first second : Nat} (fits : first < 2 ^ width) (ordered : second ≤ first) :
    checkedSub (BitVec.ofNat width first) (BitVec.ofNat width second) = some (BitVec.ofNat width (first - second)) := by
  have firstNumber : (BitVec.ofNat width first).toNat = first := Nat.mod_eq_of_lt fits
  have secondNumber : (BitVec.ofNat width second).toNat = second := Nat.mod_eq_of_lt (by omega)
  have difference : (BitVec.ofNat width (first - second)).toNat = first - second := Nat.mod_eq_of_lt (by omega)
  have inOrder : (BitVec.ofNat width second).toNat ≤ (BitVec.ofNat width first).toNat := by omega
  rw [checkedSub_eq inOrder, Option.some.injEq, ← BitVec.toNat_inj, BitVec.toNat_sub_of_le inOrder]
  omega

theorem checkedMul_ofNat {first second : Nat} (fits : first * second < 2 ^ width) :
    checkedMul (BitVec.ofNat width first) (BitVec.ofNat width second) = some (BitVec.ofNat width (first * second)) := by
  rw [BitVec.ofNat_mul]
  refine checkedMul_eq (Nat.lt_of_le_of_lt ?_ fits)
  rw [BitVec.toNat_ofNat, BitVec.toNat_ofNat]
  exact Nat.mul_le_mul (Nat.mod_le _ _) (Nat.mod_le _ _)

theorem checkedShiftLeft_eq {value : BitVec width} {places : Nat} (inside : places < width) :
    checkedShiftLeft value places = some (value <<< places) := if_pos inside

theorem checkedShiftRight_eq {value : BitVec width} {places : Nat} (inside : places < width) :
    checkedShiftRight value places = some (value >>> places) := if_pos inside

theorem checkedSignedShiftRight_eq {value : BitVec width} {places : Nat} (inside : places < width) :
    checkedSignedShiftRight value places = some (value.sshiftRight places) := if_pos inside

theorem bit?_eq {value : BitVec width} {index : Nat} (inside : index < width) :
    bit? value index = some (value.getLsbD index) := if_pos inside

theorem setBit?_eq {value : BitVec width} {index : Nat} {bit : Bool} (inside : index < width) :
    setBit? value index bit = some (setBit value index bit) := if_pos inside

theorem field?_eq {value : BitVec width} {first last : Nat} (count : Nat) (counted : first + count = last + 1)
    (inside : last < width) :
    field? value first last = some ((value.extractLsb' first count).setWidth width) := by
  have spanned : span first last = count := by
    unfold span
    omega
  rw [field?, spanned, if_pos (by omega)]

theorem narrow?_eq {value : BitVec width} {count : Nat} (fits : value.toNat < 2 ^ count) :
    narrow? count value = some (value.setWidth count) := if_pos fits

theorem checkedField_eq {value : BitVec width} {first count : Nat} (positive : 0 < count)
    (inside : first + count ≤ width) :
    checkedField value first count = some (value.extractLsb' first count) := by
  have small : (value.extractLsb' first count).toNat < 2 ^ count := (value.extractLsb' first count).isLt
  have widened : ((value.extractLsb' first count).setWidth width).toNat = (value.extractLsb' first count).toNat :=
    BitVec.toNat_setWidth_of_le (by omega)
  rw [checkedField, field?_eq count (by omega) (by omega)]
  show narrow? count _ = _
  rw [narrow?_eq (by rw [widened]; exact small), Option.some.injEq, ← BitVec.toNat_inj, BitVec.toNat_setWidth,
    widened]
  exact Nat.mod_eq_of_lt small

end Bits

end Arm32
