import Arm32.Machine
import Arm32.Proofs.Memory.Words
import Arm32.Proofs.Safety.Checks

/-! Memory accesses with checks. The bytes of an image lie in an array that is indexed by the distance from its base. An
address that has passed the test for being mapped is not below the base, an aligned one has room for the rest of the
access, and the array has all the bytes that are asked of it. -/

namespace Arm32.Memory.Image

open Bits (checkedAdd checkedSub)

variable {image : Image} {address value : Word}

/-! ### The array of bytes -/

def checkedByteAt (image : Image) (index : Index) : Option Byte :=
  if index.toNat < image.size then some (image.byte (image.base + index.setWidth 32)) else none

def checkedSetByteAt (image : Image) (index : Index) (value : Byte) : Option Image :=
  if index.toNat < image.size then some (image.setByte (image.base + index.setWidth 32) value) else none

/-- The address of the first of four bytes, if the array has them all. -/
def checkedSlice (image : Image) (index : Index) : Option Word := do
  let last ← checkedAdd index 4
  guard (last.toNat ≤ image.size)
  return image.base + index.setWidth 32

def checkedLimit (image : Image) : Option Index :=
  checkedAdd (image.base.setWidth 64) (BitVec.ofNat 64 image.size)

def checkedContains (image : Image) (address : Word) : Option Bool := do
  let limit ← image.checkedLimit
  return image.base.toNat ≤ address.toNat && address.toNat < limit.toNat

def checkedRequireMapped (image : Image) (address : Word) : Checked Fault Unit := do
  if ← image.checkedContains address then return () else throw (image.unmapped address)

def checkedOffset (image : Image) (address : Word) : Checked Fault Index := do
  image.checkedRequireMapped address
  let offset ← checkedSub address image.base
  return offset.setWidth 64

theorem exists_checkedLimit (image : Image) : ∃ limit, image.checkedLimit = some limit ∧ limit.toNat = image.limit := by
  have fits : image.base.toNat + image.size ≤ 4294967296 := image.fits
  have base : (image.base.setWidth 64).toNat = image.base.toNat := BitVec.toNat_setWidth_of_le (by decide)
  have size : (BitVec.ofNat 64 image.size).toNat = image.size := by
    rw [BitVec.toNat_ofNat]
    omega
  refine ⟨_, Bits.checkedAdd_eq (by omega), ?_⟩
  rw [BitVec.toNat_add_of_lt (by omega), base, size]
  rfl

theorem checkedContains_eq : image.checkedContains address = some (image.contains address) := by
  obtain ⟨limit, found, number⟩ := image.exists_checkedLimit
  simp only [checkedContains, found, Option.bind_eq_bind, Option.bind_some, Option.pure_def, number, contains]

theorem checkedRequireMapped_eq :
    image.checkedRequireMapped address = .ofExcept (image.requireMapped address) := by
  cases mapped : image.contains address <;> simp [checkedRequireMapped, requireMapped, checkedContains_eq, mapped]

/-- The distance from the base indexes the byte at the address. -/
theorem base_add_offset : image.base + ((address - image.base).setWidth 64).setWidth 32 = address := by
  rw [BitVec.setWidth_setWidth_of_le _ (by decide), BitVec.setWidth_eq, BitVec.add_comm, BitVec.sub_add_cancel]

theorem toNat_offset (mapped : image.contains address = true) :
    ((address - image.base).setWidth 64).toNat = address.toNat - image.base.toNat := by
  rw [BitVec.toNat_setWidth_of_le (by decide)]
  exact BitVec.toNat_sub_of_le (contains_iff.mp mapped).1

theorem checkedOffset_eq :
    image.checkedOffset address =
      .ofExcept ((image.requireMapped address).map fun _ => (address - image.base).setWidth 64) := by
  cases mapped : image.contains address with
  | false => simp [checkedOffset, checkedRequireMapped_eq, requireMapped, mapped]
  | true =>
      have offset : checkedSub address image.base = some (address - image.base) :=
        Bits.checkedSub_eq (contains_iff.mp mapped).1
      simp [checkedOffset, checkedRequireMapped_eq, requireMapped, mapped, offset]

/-! ### Bytes -/

def checkedLoadByte (image : Image) (address : Word) : Checked Fault Byte := do
  let offset ← image.checkedOffset address
  image.checkedByteAt offset

def checkedStoreByte (image : Image) (address value : Word) : Checked Fault Image := do
  let low ← Bits.checkedField value 0 8
  let offset ← image.checkedOffset address
  image.checkedSetByteAt offset low

theorem checkedByteAt_eq (mapped : image.contains address = true) :
    image.checkedByteAt ((address - image.base).setWidth 64) = some (image.byte address) := by
  have above := (contains_iff.mp mapped).1
  have below : address.toNat < image.base.toNat + image.size := (contains_iff.mp mapped).2
  rw [checkedByteAt, toNat_offset mapped, if_pos (by omega), base_add_offset]

theorem checkedSetByteAt_eq {low : Byte} (mapped : image.contains address = true) :
    image.checkedSetByteAt ((address - image.base).setWidth 64) low = some (image.setByte address low) := by
  have above := (contains_iff.mp mapped).1
  have below : address.toNat < image.base.toNat + image.size := (contains_iff.mp mapped).2
  rw [checkedSetByteAt, toNat_offset mapped, if_pos (by omega), base_add_offset]

theorem requireAccess_of_aligned {size : AccessSize} (aligned : address.toNat % size.bytes = 0) :
    image.requireAccess size address = (do
      image.requireMapped address
      image.requireMapped (address + BitVec.ofNat 32 (size.bytes - 1))) :=
  if_neg (not_not_intro aligned)

theorem requireAccess_byte : image.requireAccess .byte address = image.requireMapped address := by
  rw [requireAccess_of_aligned (Nat.mod_one _)]
  show (image.requireMapped address >>= fun _ => image.requireMapped (address + 0#32)) = _
  rw [BitVec.add_zero]
  cases image.requireMapped address <;> rfl

theorem checkedLoadByte_eq : image.checkedLoadByte address = .ofExcept (image.loadByte address) := by
  rw [checkedLoadByte, loadByte, checkedOffset_eq, requireAccess_byte]
  cases mapped : image.contains address with
  | false => simp [requireMapped, mapped]
  | true => simp [requireMapped, mapped, checkedByteAt_eq mapped]

theorem checkedStoreByte_eq :
    image.checkedStoreByte address value = .ofExcept (image.storeByte address (value.extractLsb' 0 8)) := by
  have low : Bits.checkedField value 0 8 = some (value.extractLsb' 0 8) := Bits.checkedField_eq (by decide) (by decide)
  rw [checkedStoreByte, storeByte, low, checkedOffset_eq, requireAccess_byte]
  cases mapped : image.contains address with
  | false => simp [requireMapped, mapped]
  | true => simp [requireMapped, mapped, checkedSetByteAt_eq mapped]

/-! ### Halfwords and words -/

def checkedLoadHalfword (image : Image) (address : Word) : Checked Fault (BitVec 16) := do
  if address.toNat % 2 = 0 then
    let first ← image.checkedLoadByte address
    let next ← checkedAdd address 1
    let second ← image.checkedLoadByte next
    return image.order.halfword first second
  else throw (.misaligned .halfword address)

def checkedStoreHalfword (image : Image) (address value : Word) : Checked Fault Image := do
  if address.toNat % 2 = 0 then
    let low ← Bits.field? value 0 7
    let high ← Bits.field? value 8 15
    let (first, second) :=
      match image.order with
      | .little => (low, high)
      | .big => (high, low)
    let image ← image.checkedStoreByte address first
    let next ← checkedAdd address 1
    image.checkedStoreByte next second
  else throw (.misaligned .halfword address)

/-- Where the bytes of a word begin, once the whole of it is found to be mapped. -/
def checkedStart (image : Image) (address : Word) : Checked Fault Word := do
  if address.toNat % 4 = 0 then
    let offset ← image.checkedOffset address
    let last ← checkedAdd address 3
    image.checkedRequireMapped last
    image.checkedSlice offset
  else throw (.misaligned .word address)

def checkedLoadWord (image : Image) (address : Word) : Checked Fault Word := do
  let start ← image.checkedStart address
  return image.order.word (image.byte start) (image.byte (start + 1)) (image.byte (start + 2)) (image.byte (start + 3))

def checkedStoreWord (image : Image) (address value : Word) : Checked Fault Image := do
  let start ← image.checkedStart address
  let byteOf := image.order.byteOfWord value
  return (((image.setByte start (byteOf 0)).setByte (start + 1) (byteOf 1)).setByte (start + 2)
    (byteOf 2)).setByte (start + 3) (byteOf 3)

theorem requireAccess_halfword (aligned : address.toNat % 2 = 0) :
    image.requireAccess .halfword address = (do
      image.requireMapped address
      image.requireMapped (address + 1)) := requireAccess_of_aligned aligned

theorem checkedAdd_one (aligned : address.toNat % 2 = 0) : checkedAdd address 1 = some (address + 1) := by
  have below : address.toNat < 4294967296 := address.isLt
  refine Bits.checkedAdd_eq ?_
  show address.toNat + 1 < 4294967296
  omega

theorem checkedLoadHalfword_eq : image.checkedLoadHalfword address = .ofExcept (image.loadHalfword address) := by
  unfold checkedLoadHalfword loadHalfword
  by_cases aligned : address.toNat % 2 = 0
  · rw [if_pos aligned, requireAccess_halfword aligned, checkedAdd_one aligned]
    generalize address + 1 = next
    simp only [checkedLoadByte_eq, loadByte, requireAccess_byte]
    cases first : image.requireMapped address <;> cases second : image.requireMapped next <;> simp [second]
  · have misaligned : image.requireAccess .halfword address = .error (.misaligned .halfword address) := if_pos aligned
    rw [misaligned, if_neg aligned]
    rfl

theorem checkedStoreHalfword_eq :
    image.checkedStoreHalfword address value = .ofExcept (image.storeHalfword address (value.setWidth 16)) := by
  unfold checkedStoreHalfword storeHalfword
  by_cases aligned : address.toNat % 2 = 0
  · have field (first : Nat) (inside : first + 8 ≤ 16) :
        ((value.extractLsb' first 8).setWidth 32).extractLsb' 0 8 = (value.setWidth 16).extractLsb' first 8 := by
      rw [BitVec.extractLsb'_setWidth_of_le (by decide), BitVec.extractLsb'_setWidth_of_le inside]
      exact BitVec.extractLsb'_eq_self
    have low : Bits.field? value 0 7 = some ((value.extractLsb' 0 8).setWidth 32) := Bits.field?_eq 8 rfl (by decide)
    have high : Bits.field? value 8 15 = some ((value.extractLsb' 8 8).setWidth 32) := Bits.field?_eq 8 rfl (by decide)
    rw [if_pos aligned, requireAccess_halfword aligned, checkedAdd_one aligned, low, high]
    generalize address + 1 = next
    have shape (byte : Byte) : (image.setByte address byte).requireMapped next = image.requireMapped next := rfl
    cases order : image.order <;> cases first : image.requireMapped address <;>
      cases second : image.requireMapped next <;>
        simp [checkedStoreByte_eq, storeByte, requireAccess_byte, first, second, shape, ByteOrder.byteOfHalfword, field]
  · have misaligned : image.requireAccess .halfword address = .error (.misaligned .halfword address) := if_pos aligned
    rw [misaligned, if_neg aligned]
    rfl

theorem checkedSlice_eq (mapped : image.contains address = true) (rest : address.toNat + 3 < image.limit) :
    image.checkedSlice ((address - image.base).setWidth 64) = some address := by
  have above := (contains_iff.mp mapped).1
  have below : address.toNat < 4294967296 := address.isLt
  -- The last of the four bytes is mapped, so there is room for them behind the first.
  have within : address.toNat + 3 < image.base.toNat + image.size := rest
  have offset := toNat_offset mapped
  have last : checkedAdd ((address - image.base).setWidth 64) 4 = some ((address - image.base).setWidth 64 + 4) := by
    refine Bits.checkedAdd_eq ?_
    rw [offset]
    show address.toNat - image.base.toNat + 4 < 18446744073709551616
    omega
  have bound : ((address - image.base).setWidth 64 + 4).toNat ≤ image.size := by
    rw [BitVec.toNat_add, offset]
    show (address.toNat - image.base.toNat + 4) % 18446744073709551616 ≤ image.size
    omega
  rw [checkedSlice, last, Option.bind_eq_bind, Option.bind_some, guard_of_true bound]
  exact congrArg some base_add_offset

theorem checkedStart_eq :
    image.checkedStart address = .ofExcept ((image.requireAccess .word address).map fun _ => address) := by
  unfold checkedStart
  by_cases aligned : address.toNat % 4 = 0
  · have below : address.toNat < 4294967296 := address.isLt
    have last : checkedAdd address 3 = some (address + 3) := by
      refine Bits.checkedAdd_eq ?_
      show address.toNat + 3 < 4294967296
      omega
    have both : image.requireAccess .word address = (do
        image.requireMapped address
        image.requireMapped (address + 3)) := requireAccess_of_aligned aligned
    have next : (address + 3).toNat = address.toNat + 3 := BitVec.toNat_add_of_lt (by
      show address.toNat + 3 < 4294967296
      omega)
    rw [if_pos aligned, both, last, checkedOffset_eq]
    generalize address + 3 = last at next
    cases mapped : image.contains address with
    | false => simp [requireMapped, mapped]
    | true =>
        cases rest : image.contains last with
        | false => simp [requireMapped, checkedRequireMapped_eq, mapped, rest]
        | true =>
            have slice : image.checkedSlice ((address - image.base).setWidth 64) = some address :=
              checkedSlice_eq mapped (by rw [← next]; exact (contains_iff.mp rest).2)
            simp [requireMapped, checkedRequireMapped_eq, mapped, rest, slice]
  · have misaligned : image.requireAccess .word address = .error (.misaligned .word address) := if_pos aligned
    rw [misaligned, if_neg aligned]
    rfl

theorem checkedLoadWord_eq : image.checkedLoadWord address = .ofExcept (image.loadWord address) := by
  rw [checkedLoadWord, checkedStart_eq, loadWord]
  cases image.requireAccess .word address <;> rfl

theorem checkedStoreWord_eq :
    image.checkedStoreWord address value = .ofExcept (image.storeWord address value) := by
  rw [checkedStoreWord, checkedStart_eq, storeWord]
  cases image.requireAccess .word address <;> rfl

end Arm32.Memory.Image
