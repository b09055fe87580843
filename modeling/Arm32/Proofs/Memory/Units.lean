import Mathlib.Data.Nat.Digits.Defs
import Arm32.Proofs.Memory.Words

/-! Bytes, halfwords and words in an image, by the numbers that their bytes stand for. A number is loaded with the weights
that the byte order gives to the bytes, and after it was stored its bytes stand for it. -/

namespace Arm32

/-- Bytes as the digits of a number. The first byte counts least in little order, and most in big order. -/
def ByteOrder.number (order : ByteOrder) (bytes : List Byte) : Nat :=
  let digits := match order with
    | little => bytes
    | big => bytes.reverse
  Nat.ofDigits 0x100 (digits.map BitVec.toNat)

theorem Byte.toNat_append {width : Nat} (upper : BitVec width) (lower : Byte) :
    (upper ++ lower).toNat = lower.toNat + 0x100 * upper.toNat := by
  rw [BitVec.toNat_append, ← Nat.shiftLeft_add_eq_or_of_lt lower.isLt, Nat.shiftLeft_eq]
  omega

namespace ByteOrder

theorem toNat_halfword (order : ByteOrder) (first second : Byte) :
    (order.halfword first second).toNat = order.number [first, second] := by
  cases order <;>
    simp only [halfword, number, Byte.toNat_append, List.reverse_cons, List.reverse_nil, List.nil_append,
      List.cons_append, List.map_cons, List.map_nil, Nat.ofDigits_cons, Nat.ofDigits_nil] <;> omega

theorem toNat_word (order : ByteOrder) (first second third fourth : Byte) :
    (order.word first second third fourth).toNat = order.number [first, second, third, fourth] := by
  cases order <;>
    simp only [word, number, Byte.toNat_append, List.reverse_cons, List.reverse_nil, List.nil_append,
      List.cons_append, List.map_cons, List.map_nil, Nat.ofDigits_cons, Nat.ofDigits_nil] <;> omega

theorem halfword_byteOfHalfword (order : ByteOrder) (value : BitVec 16) :
    order.halfword (order.byteOfHalfword value 0) (order.byteOfHalfword value 1) = value := by
  cases order <;> simp only [halfword, byteOfHalfword] <;> ext bit <;> grind

end ByteOrder

namespace Memory

/-- One past the greatest number of the size. -/
def AccessSize.bound : AccessSize → Nat
  | byte => 0x100
  | halfword => 0x10000
  | word => 0x100000000

def AccessSize.bits (size : AccessSize) : Nat := 8 * size.bytes

theorem AccessSize.toNat_setWidth (size : AccessSize) (value : Word) :
    (value.setWidth size.bits).toNat = value.toNat % size.bound := by
  cases size <;> exact BitVec.toNat_setWidth _ value

theorem AccessSize.toInt_eq {size : AccessSize} (value : BitVec size.bits) :
    value.toInt = if 2 * value.toNat < size.bound then (value.toNat : Int) else value.toNat - size.bound := by
  cases size <;> rfl

namespace Image

/-- The number that stands at an address. -/
def number (image : Image) (size : AccessSize) (address : Word) : Nat :=
  image.order.number ((List.range size.bytes).map fun place => image.byte (address + BitVec.ofNat 32 place))

def load (image : Image) : (size : AccessSize) → Word → Except Fault (BitVec size.bits)
  | .byte => image.loadByte
  | .halfword => image.loadHalfword
  | .word => image.loadWord

def store (image : Image) : (size : AccessSize) → Word → BitVec size.bits → Except Fault Image
  | .byte => image.storeByte
  | .halfword => image.storeHalfword
  | .word => image.storeWord

variable {image after : Image} {size : AccessSize} {address : Word} {value : BitVec size.bits} {byte : Byte}
  {halfword : BitVec 16}

/-! ### Accesses that are made -/

theorem loadByte_of_access (access : image.requireAccess .byte address = .ok ()) :
    image.loadByte address = .ok (image.byte address) := by
  simp [loadByte, access, bind, Except.bind, pure, Except.pure]

theorem loadHalfword_of_access (access : image.requireAccess .halfword address = .ok ()) :
    image.loadHalfword address = .ok (image.order.halfword (image.byte address) (image.byte (address + 1))) := by
  simp [loadHalfword, access, bind, Except.bind, pure, Except.pure]

theorem storeByte_of_access (access : image.requireAccess .byte address = .ok ()) :
    image.storeByte address byte = .ok (image.setByte address byte) := by
  simp [storeByte, access, bind, Except.bind, pure, Except.pure]

theorem storeHalfword_of_access (access : image.requireAccess .halfword address = .ok ()) :
    image.storeHalfword address halfword = .ok ((image.setByte address (image.order.byteOfHalfword halfword 0)).setByte
      (address + 1) (image.order.byteOfHalfword halfword 1)) := by
  simp [storeHalfword, access, bind, Except.bind, pure, Except.pure]

theorem access_of_load (loaded : image.load size address = .ok value) : image.requireAccess size address = .ok () := by
  cases access : image.requireAccess size address with
  | error fault =>
      cases size <;> simp [load, loadByte, loadHalfword, loadWord, access, bind, Except.bind] at loaded
  | ok _ => rfl

theorem access_of_store (stored : image.store size address value = .ok after) :
    image.requireAccess size address = .ok () := by
  cases access : image.requireAccess size address with
  | error fault =>
      cases size <;> simp [store, storeByte, storeHalfword, storeWord, access, bind, Except.bind] at stored
  | ok _ => rfl

theorem load_of_access (access : image.requireAccess size address = .ok ()) :
    ∃ value, image.load size address = .ok value ∧ value.toNat = image.number size address := by
  cases size with
  | byte =>
      have number : image.number .byte address = (image.byte address).toNat := by
        rw [number]
        cases image.order <;> simp [ByteOrder.number, AccessSize.bytes]
      exact ⟨_, loadByte_of_access access, number.symm⟩
  | halfword =>
      have number : image.number .halfword address =
          image.order.number [image.byte address, image.byte (address + 1)] := by
        simp [Image.number, AccessSize.bytes, List.range_succ]
      exact ⟨_, loadHalfword_of_access access, (image.order.toNat_halfword _ _).trans number.symm⟩
  | word =>
      have number : image.number .word address =
          image.order.number [image.byte address, image.byte (address + 1), image.byte (address + 2),
            image.byte (address + 3)] := by
        simp [Image.number, AccessSize.bytes, List.range_succ]
      exact ⟨_, loadWord_of_access access, (image.order.toNat_word _ _ _ _).trans number.symm⟩

/-- An access that can be made loads the number at the address. -/
theorem load_eq_ok_iff :
    image.load size address = .ok value ↔
      image.requireAccess size address = .ok () ∧ value.toNat = image.number size address := by
  constructor
  · intro loaded
    obtain ⟨same, found, number⟩ := load_of_access (access_of_load loaded)
    cases loaded.symm.trans found
    exact ⟨access_of_load loaded, number⟩
  · rintro ⟨access, same⟩
    obtain ⟨value, found, number⟩ := load_of_access access
    cases BitVec.eq_of_toNat_eq (number.trans same.symm)
    exact found

theorem exists_load_iff :
    (∃ value, image.load size address = .ok value) ↔ image.requireAccess size address = .ok () := by
  refine ⟨fun ⟨_, loaded⟩ => access_of_load loaded, ?_⟩
  intro access
  obtain ⟨value, loaded, -⟩ := load_of_access access
  exact ⟨value, loaded⟩

/-! ### Stores -/

theorem exists_store_iff :
    (∃ after, image.store size address value = .ok after) ↔ image.requireAccess size address = .ok () := by
  refine ⟨fun ⟨_, stored⟩ => access_of_store stored, ?_⟩
  intro access
  cases size with
  | byte => exact ⟨_, storeByte_of_access access⟩
  | halfword => exact ⟨_, storeHalfword_of_access access⟩
  | word => exact ⟨_, storeWord_of_access access⟩

/-- A store keeps the shape of the image, so what was stored can be loaded. -/
theorem loadByte_of_storeByte (stored : image.storeByte address byte = .ok after) :
    after.loadByte address = .ok byte := by
  have access := access_of_store (show image.store .byte address byte = .ok after from stored)
  have written := Except.ok.inj ((storeByte_of_access access).symm.trans stored)
  have accessAfter : after.requireAccess .byte address = .ok () := by
    rw [← written]
    exact access
  rw [loadByte_of_access accessAfter, ← written, byte_setByte, if_pos rfl]

theorem loadHalfword_of_storeHalfword (stored : image.storeHalfword address halfword = .ok after) :
    after.loadHalfword address = .ok halfword := by
  have access := access_of_store (show image.store .halfword address halfword = .ok after from stored)
  have written := Except.ok.inj ((storeHalfword_of_access access).symm.trans stored)
  have accessAfter : after.requireAccess .halfword address = .ok () := by
    rw [← written]
    exact access
  have apart : address ≠ address + 1 := by bv_omega
  rw [loadHalfword_of_access accessAfter, ← written]
  simp only [byte_setByte, apart, if_true, if_false]
  exact congrArg Except.ok (ByteOrder.halfword_byteOfHalfword image.order halfword)

theorem load_of_store (stored : image.store size address value = .ok after) : after.load size address = .ok value := by
  cases size with
  | byte => exact loadByte_of_storeByte stored
  | halfword => exact loadHalfword_of_storeHalfword stored
  | word => exact loadWord_of_storeWord stored

theorem number_of_store (stored : image.store size address value = .ok after) :
    after.number size address = value.toNat :=
  (load_eq_ok_iff.mp (load_of_store stored)).2.symm

end Image

end Memory
end Arm32
