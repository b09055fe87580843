import Arm32.Proofs.Frame.Footprint
import Arm32.Proofs.Memory.Units
import Arm32.Proofs.Safety.Memory

/-! Numbers of all sizes as views of one array of bytes. A store puts down the bytes of its number and changes nothing
else. So a load puts together what was last written to each of its bytes, whatever sizes it was written in, and in
whichever byte order. -/

namespace Arm32

open Memory (AccessSize covers)

namespace ByteOrder

/-- How many bytes of a number count less than the one at a place. -/
def lowerBytes (order : ByteOrder) (size : AccessSize) (place : Nat) : Nat :=
  match order with
  | little => place
  | big => size.bytes - 1 - place

/-- The byte of a number at a place, counted from its lowest address. -/
def digit (order : ByteOrder) (size : AccessSize) (value : Word) (place : Nat) : Byte :=
  value.extractLsb' (8 * order.lowerBytes size place) 8

end ByteOrder

namespace Memory

/-- The number with its bytes in the opposite order. -/
def AccessSize.reversed : (size : AccessSize) → Word → BitVec size.bits
  | byte, value => value.extractLsb' 0 8
  | halfword, value => value.extractLsb' 0 8 ++ value.extractLsb' 8 8
  | word, value => value.extractLsb' 0 8 ++ value.extractLsb' 8 8 ++ value.extractLsb' 16 8 ++ value.extractLsb' 24 8

/-- What happens to an image while it is in use. -/
inductive Change where
  /-- Of the value, as many low bytes are stored as the number has. -/
  | store (size : AccessSize) (address value : Word)
  | switch (order : ByteOrder)
  deriving DecidableEq, Repr

namespace Change

def orderAfter (order : ByteOrder) : Change → ByteOrder
  | store _ _ _ => order
  | switch other => other

/-- What a change writes to the byte at an address, none if it leaves it alone. -/
def written? (order : ByteOrder) (address : Word) : Change → Option Byte
  | store size start value =>
    if covers start size.bytes address then some (order.digit size value (address - start).toNat) else none
  | switch _ => none

/-- What is last written to the byte at an address, none if it is left alone throughout. -/
def lastWritten? (order : ByteOrder) (address : Word) : List Change → Option Byte
  | [] => none
  | change :: rest => (lastWritten? (change.orderAfter order) address rest).or (change.written? order address)

def lastOrder (order : ByteOrder) (changes : List Change) : ByteOrder := changes.foldl orderAfter order

end Change

namespace Image

variable {image after : Image} {size : AccessSize} {address other value : Word} {count : Nat} {byteOf : Nat → Byte}
  {order : ByteOrder} {change : Change}

def apply (image : Image) : Change → Except Fault Image
  | .store size address value => image.store size address (value.setWidth size.bits)
  | .switch order => .ok (image.withOrder order)

def applyAll (image : Image) (changes : List Change) : Except Fault Image := changes.foldlM apply image

/-! ### Accesses that are made -/

/-- The address is a multiple of the size, and all bytes lie between the base of the image and its limit. -/
def IsAccessible (image : Image) (size : AccessSize) (address : Word) : Prop :=
  size.bytes ∣ address.toNat ∧
    ∀ place < size.bytes, image.base.toNat ≤ address.toNat + place ∧ address.toNat + place < image.limit

/-- The fault tells why an access is not made. -/
def Denies (image : Image) (size : AccessSize) (address : Word) : Fault → Prop
  | .misaligned named start => ¬ size.bytes ∣ address.toNat ∧ named = size ∧ start = address
  | .unmapped first base limit =>
    size.bytes ∣ address.toNat ∧ covers address size.bytes first = true ∧ image.contains first = false ∧
      base = image.base ∧ limit = image.limit

theorem requireAccess_eq_ok_iff_isAccessible :
    image.requireAccess size address = .ok () ↔ image.IsAccessible size address := by
  have positive : 0 < size.bytes := by cases size <;> decide
  rw [requireAccess_eq_ok_iff, IsAccessible, Nat.dvd_iff_mod_eq_zero]
  refine and_congr_right fun _ => ⟨fun ⟨above, below⟩ place within => by omega, fun mapped => ?_⟩
  have first := mapped 0 positive
  have last := mapped (size.bytes - 1) (by omega)
  omega

theorem denies_of_requireAccess {fault : Fault} (denied : image.requireAccess size address = .error fault) :
    image.Denies size address fault := by
  have mapped {place : Word} {fault : Fault} (denied : image.requireMapped place = .error fault) :
      image.contains place = false ∧ fault = image.unmapped place := by
    unfold requireMapped at denied
    split at denied
    · cases denied
    · next outside => exact ⟨by simpa using outside, (Except.error.inj denied).symm⟩
  by_cases aligned : address.toNat % size.bytes = 0
  · have positive : 0 < size.bytes ∧ size.bytes ≤ 4 := by cases size <;> decide
    have last : covers address size.bytes (address + BitVec.ofNat 32 (size.bytes - 1)) = true := by
      simp only [covers, decide_eq_true_eq]
      bv_omega
    have first : covers address size.bytes address = true := by
      simpa [covers] using positive.1
    rw [requireAccess_of_aligned aligned] at denied
    cases start : image.requireMapped address with
    | error reason =>
        rw [start] at denied
        cases denied
        obtain ⟨outside, rfl⟩ := mapped start
        exact ⟨Nat.dvd_of_mod_eq_zero aligned, first, outside, rfl, rfl⟩
    | ok _ =>
        rw [start] at denied
        obtain ⟨outside, rfl⟩ := mapped denied
        exact ⟨Nat.dvd_of_mod_eq_zero aligned, last, outside, rfl, rfl⟩
  · rw [requireAccess, if_pos aligned] at denied
    cases denied
    exact ⟨fun divides => aligned (Nat.mod_eq_zero_of_dvd divides), rfl, rfl⟩

/-! ### Stores byte by byte -/

/-- Bytes written one after another, from an address up. -/
def writeBytes (image : Image) (address : Word) (byteOf : Nat → Byte) : Nat → Image
  | 0 => image
  | count + 1 => (image.writeBytes address byteOf count).setByte (address + BitVec.ofNat 32 count) (byteOf count)

theorem byte_writeBytes (few : count ≤ Word.bound) {place : Nat} (within : place < count) :
    (image.writeBytes address byteOf count).byte (address + BitVec.ofNat 32 place) = byteOf place := by
  induction count with
  | zero => exact absurd within (Nat.not_lt_zero place)
  | succ count ih =>
      simp only [Word.bound] at few ih
      rw [writeBytes, byte_setByte]
      by_cases last : place = count
      · rw [if_pos (by rw [last]), last]
      · have apart : address + BitVec.ofNat 32 place ≠ address + BitVec.ofNat 32 count := by bv_omega
        rw [if_neg apart, ih (by omega) (by omega)]

theorem store_of_access (access : image.requireAccess size address = .ok ()) :
    image.store size address (value.setWidth size.bits) =
      .ok (image.writeBytes address (image.order.digit size value) size.bytes) := by
  cases size with
  | byte =>
      refine (storeByte_of_access access).trans ?_
      cases image.order <;>
        simp [AccessSize.bytes, AccessSize.bits, writeBytes, ByteOrder.digit, ByteOrder.lowerBytes,
          BitVec.setWidth_eq_extractLsb']
  | halfword =>
      refine (storeHalfword_of_access access).trans ?_
      cases image.order <;>
        simp [AccessSize.bytes, AccessSize.bits, writeBytes, ByteOrder.digit, ByteOrder.lowerBytes,
          ByteOrder.byteOfHalfword, BitVec.extractLsb'_setWidth_of_le]
  | word =>
      refine (storeWord_of_access access).trans ?_
      cases image.order <;>
        simp [AccessSize.bytes, AccessSize.bits, writeBytes, ByteOrder.digit, ByteOrder.lowerBytes,
          ByteOrder.byteOfWord]

theorem ChangesOnly.store {number : BitVec size.bits} (stored : image.store size address number = .ok after) :
    ChangesOnly (fun other => covers address size.bytes other = true) image after := by
  cases size with
  | byte => exact (ChangesOnly.refl _ image).storeByte (fun _ => id) stored
  | halfword => exact (ChangesOnly.refl _ image).storeHalfword (fun _ => id) stored
  | word => exact (ChangesOnly.refl _ image).storeWord (fun _ => id) stored

/-- The bytes of the number are there, and nothing else has changed. -/
structure Stored (image : Image) (size : AccessSize) (address value : Word) (after : Image) : Prop where
  bytes : ∀ place < size.bytes, after.byte (address + BitVec.ofNat 32 place) = image.order.digit size value place
  kept : ChangesOnly (fun other => covers address size.bytes other = true) image after

theorem stored_of_store (stored : image.store size address (value.setWidth size.bits) = .ok after) :
    image.Stored size address value after := by
  refine ⟨?_, ChangesOnly.store stored⟩
  intro place within
  rw [store_of_access (access_of_store stored)] at stored
  cases stored
  exact byte_writeBytes (by cases size <;> decide) within

/-! ### Checked accesses -/

def checkedLoad (image : Image) : (size : AccessSize) → Word → Checked Fault (BitVec size.bits)
  | .byte => image.checkedLoadByte
  | .halfword => image.checkedLoadHalfword
  | .word => image.checkedLoadWord

def checkedStore (image : Image) : AccessSize → Word → Word → Checked Fault Image
  | .byte => image.checkedStoreByte
  | .halfword => image.checkedStoreHalfword
  | .word => image.checkedStoreWord

theorem checkedLoad_eq : image.checkedLoad size address = .ofExcept (image.load size address) := by
  cases size with
  | byte => exact checkedLoadByte_eq
  | halfword => exact checkedLoadHalfword_eq
  | word => exact checkedLoadWord_eq

theorem checkedStore_eq :
    image.checkedStore size address value = .ofExcept (image.store size address (value.setWidth size.bits)) := by
  cases size with
  | byte =>
      refine checkedStoreByte_eq.trans ?_
      rw [← BitVec.setWidth_eq_extractLsb' (by decide)]
      rfl
  | halfword => exact checkedStoreHalfword_eq
  | word =>
      refine checkedStoreWord_eq.trans ?_
      show _ = Checked.ofExcept (image.storeWord address (value.setWidth 32))
      rw [BitVec.setWidth_eq]

/-! ### Numbers in the other byte order -/

theorem toNat_reversed (size : AccessSize) (value : Word) {order other : ByteOrder} (apart : other ≠ order) :
    (size.reversed value).toNat = other.number ((List.range size.bytes).map (order.digit size value)) := by
  have sides : order = .little ∧ other = .big ∨ order = .big ∧ other = .little := by
    cases order <;> cases other <;> simp at apart ⊢
  cases size with
  | byte =>
      have single (byte : Byte) : other.number [byte] = byte.toNat := by cases other <;> simp [ByteOrder.number]
      cases order <;> exact (single _).symm
  | halfword =>
      refine Eq.trans ?_ (other.toNat_halfword _ _)
      rcases sides with ⟨rfl, rfl⟩ | ⟨rfl, rfl⟩ <;> rfl
  | word =>
      refine Eq.trans ?_ (other.toNat_word _ _ _ _)
      rcases sides with ⟨rfl, rfl⟩ | ⟨rfl, rfl⟩ <;> rfl

theorem load_reversed (stored : image.store size address (value.setWidth size.bits) = .ok after)
    (apart : order ≠ image.order) : (after.withOrder order).load size address = .ok (size.reversed value) := by
  obtain ⟨bytes, kept⟩ := stored_of_store stored
  have shape : (after.withOrder order).requireAccess size address = image.requireAccess size address :=
    requireAccess_congr kept.base kept.size size address
  refine load_eq_ok_iff.mpr ⟨shape.trans (access_of_store stored), ?_⟩
  have digits : (List.range size.bytes).map (fun place => after.byte (address + BitVec.ofNat 32 place)) =
      (List.range size.bytes).map (image.order.digit size value) :=
    List.map_congr_left fun place member => bytes place (List.mem_range.mp member)
  rw [toNat_reversed size value apart, ← digits]
  rfl

/-! ### One change after another -/

theorem order_of_apply (applied : image.apply change = .ok after) : after.order = change.orderAfter image.order := by
  cases change with
  | store size address value => exact (stored_of_store applied).kept.order
  | switch order => cases applied; rfl

theorem byte_of_apply (applied : image.apply change = .ok after) (address : Word) :
    after.byte address = (change.written? image.order address).getD (image.byte address) := by
  cases change with
  | switch order =>
      cases applied
      rfl
  | store size start value =>
      obtain ⟨bytes, kept⟩ := stored_of_store applied
      rw [Change.written?]
      by_cases inside : covers start size.bytes address = true
      · have place : address = start + BitVec.ofNat 32 (address - start).toNat := by
          rw [BitVec.ofNat_toNat, BitVec.setWidth_eq, BitVec.add_comm, BitVec.sub_add_cancel]
        rw [if_pos inside, Option.getD_some]
        conv_lhs => rw [place]
        exact bytes _ (of_decide_eq_true inside)
      · rw [if_neg inside]
        exact kept.byte address inside

theorem bytes_of_applyAll {changes : List Change} {last : Image} (applied : image.applyAll changes = .ok last) :
    last.order = Change.lastOrder image.order changes ∧
      ∀ address, last.byte address = (Change.lastWritten? image.order address changes).getD (image.byte address) := by
  induction changes generalizing image with
  | nil =>
      cases applied
      exact ⟨rfl, fun _ => rfl⟩
  | cons change rest ih =>
      cases first : image.apply change with
      | error fault => simp [applyAll, first, bind, Except.bind] at applied
      | ok middle =>
          have others : middle.applyAll rest = .ok last := by
            simpa [applyAll, first, bind, Except.bind] using applied
          obtain ⟨order, bytes⟩ := ih others
          rw [order_of_apply first] at order bytes
          refine ⟨order, fun address => ?_⟩
          rw [bytes, byte_of_apply first, Change.lastWritten?]
          cases Change.lastWritten? (change.orderAfter image.order) address rest <;> rfl

/-- How the accesses of a size at an address meet the bytes of the image. -/
structure IsView (image : Image) (size : AccessSize) (address value : Word) : Prop where
  checkedLoad : image.checkedLoad size address = .ofExcept (image.load size address)
  checkedStore : image.checkedStore size address value = .ofExcept (image.store size address (value.setWidth size.bits))
  loads : (∃ number, image.load size address = .ok number) ↔ image.IsAccessible size address
  stores : (∃ after, image.store size address (value.setWidth size.bits) = .ok after) ↔ image.IsAccessible size address
  deniesLoad : ∀ fault, image.load size address = .error fault → image.Denies size address fault
  deniesStore : ∀ fault, image.store size address (value.setWidth size.bits) = .error fault →
    image.Denies size address fault
  stored : ∀ after, image.store size address (value.setWidth size.bits) = .ok after →
    image.Stored size address value after
  reversed : ∀ after order, image.store size address (value.setWidth size.bits) = .ok after → order ≠ image.order →
    (after.withOrder order).load size address = .ok (size.reversed value)

theorem load_of_no_access {fault : Fault} (denied : image.requireAccess size address = .error fault) :
    image.load size address = .error fault := by
  cases size <;> exact congrArg (· >>= _) denied

theorem store_of_no_access {fault : Fault} {number : BitVec size.bits}
    (denied : image.requireAccess size address = .error fault) : image.store size address number = .error fault := by
  cases size <;> exact congrArg (· >>= _) denied

theorem isView (image : Image) (size : AccessSize) (address value : Word) : image.IsView size address value where
  checkedLoad := checkedLoad_eq
  checkedStore := checkedStore_eq
  loads := exists_load_iff.trans requireAccess_eq_ok_iff_isAccessible
  stores := exists_store_iff.trans requireAccess_eq_ok_iff_isAccessible
  deniesLoad fault failed := by
    cases access : image.requireAccess size address with
    | error reason =>
        cases (load_of_no_access access).symm.trans failed
        exact denies_of_requireAccess access
    | ok _ =>
        obtain ⟨number, loaded⟩ := exists_load_iff.mpr access
        cases loaded.symm.trans failed
  deniesStore fault failed := by
    cases access : image.requireAccess size address with
    | error reason =>
        cases (store_of_no_access access).symm.trans failed
        exact denies_of_requireAccess access
    | ok _ => cases (store_of_access access).symm.trans failed
  stored _ := stored_of_store
  reversed _ _ := load_reversed

/-- Accesses of all sizes are views of one array of bytes: each is made exactly if its address is a multiple of its size
and all its bytes are mapped, and never breaks down. What is loaded after any changes is put together, in the byte order
of the moment, from what was last written to each of its bytes. -/
theorem accesses_view_bytes (image : Image) :
    (∀ size address value, image.IsView size address value) ∧
      ∀ changes last, image.applyAll changes = .ok last →
        ∀ size address number, last.load size address = .ok number →
          number.toNat = (Change.lastOrder image.order changes).number ((List.range size.bytes).map fun place =>
            (Change.lastWritten? image.order (address + BitVec.ofNat 32 place) changes).getD
              (image.byte (address + BitVec.ofNat 32 place))) := by
  refine ⟨image.isView, ?_⟩
  intro changes last applied size address number loaded
  obtain ⟨order, bytes⟩ := bytes_of_applyAll applied
  rw [(load_eq_ok_iff.mp loaded).2, Image.number, order]
  congr 1
  exact List.map_congr_left fun place _ => bytes _

/-- Seven bytes from an odd address up. -/
def atOddBase : Image := { base := 0x11, size := 7, cells := .all 0, order := .little, fits := by decide }

def mixedChanges : List Change :=
  [.store .halfword 0x12 0xbeef, .store .word 0x14 0x11223344, .switch .big, .store .byte 0x15 0x1ab]

/-- A word in little order, one of its bytes overwritten, and all of it read in big order. -/
theorem accesses_view_bytes_mixed :
    ∃ last, atOddBase.applyAll mixedChanges = .ok last ∧ last.load .word 0x14 = .ok 0x44ab2211#32 ∧
      (0x44ab2211#32).toNat = ByteOrder.big.number [0x44, 0xab, 0x22, 0x11] := by
  have applied : atOddBase.applyAll mixedChanges = .ok _ := rfl
  exact ⟨_, applied, rfl, atOddBase.accesses_view_bytes.2 _ _ applied .word 0x14 0x44ab2211#32 rfl⟩

end Image
end Memory
end Arm32
