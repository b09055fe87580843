import Mathlib.Data.List.Basic
import Arm32.Memory.Image

/-! Words in an image. A word is loaded as it was stored, in either byte order, and stores at other aligned addresses
do not touch it; so words that are stored back to back are all there afterwards. -/

namespace Arm32

theorem ByteOrder.word_byteOfWord (order : ByteOrder) (value : Word) :
    order.word (order.byteOfWord value 0) (order.byteOfWord value 1) (order.byteOfWord value 2)
      (order.byteOfWord value 3) = value := by
  cases order <;> simp only [word, byteOfWord] <;> ext bit <;> grind

namespace Memory.Image

variable {image after first second : Image} {size : AccessSize} {address other value base : Word} {values : List Word}
  {order : ByteOrder}

/-! ### Accesses that are made -/

theorem contains_iff :
    image.contains address = true ↔ image.base.toNat ≤ address.toNat ∧ address.toNat < image.limit := by
  simp [contains]

theorem requireMapped_eq_ok_iff : image.requireMapped address = .ok () ↔ image.contains address = true := by
  unfold requireMapped
  split <;> simp_all

/-- An aligned access never reaches past the greatest address. -/
theorem toNat_add_bytes (aligned : address.toNat % size.bytes = 0) :
    (address + BitVec.ofNat 32 (size.bytes - 1)).toNat = address.toNat + (size.bytes - 1) := by
  have bound : address.toNat < 4294967296 := address.isLt
  cases size <;> simp only [AccessSize.bytes] at aligned ⊢ <;> rw [BitVec.toNat_add] <;> simp <;> omega

theorem requireAccess_eq_ok_iff :
    image.requireAccess size address = .ok () ↔
      address.toNat % size.bytes = 0 ∧ image.base.toNat ≤ address.toNat ∧
        address.toNat + size.bytes ≤ image.limit := by
  by_cases aligned : address.toNat % size.bytes = 0
  · have last := toNat_add_bytes aligned
    have positive : 0 < size.bytes := by cases size <;> decide
    have both : image.requireAccess size address = .ok () ↔
        image.contains address = true ∧
          image.contains (address + BitVec.ofNat 32 (size.bytes - 1)) = true := by
      rw [← requireMapped_eq_ok_iff, ← requireMapped_eq_ok_iff, requireAccess, if_neg (not_not_intro aligned)]
      cases image.requireMapped address <;> simp [bind, Except.bind]
    rw [both, contains_iff, contains_iff, last]
    omega
  · simp [requireAccess, aligned]

theorem contains_congr (sameBase : first.base = second.base) (sameSize : first.size = second.size) (address : Word) :
    first.contains address = second.contains address := by
  rw [contains, contains, limit, limit, sameBase, sameSize]

/-- Where an access can be made, and why it cannot be made elsewhere, is a matter of shape. -/
theorem requireAccess_congr (sameBase : first.base = second.base) (sameSize : first.size = second.size)
    (size : AccessSize) (address : Word) : first.requireAccess size address = second.requireAccess size address := by
  have mapped (place : Word) : first.requireMapped place = second.requireMapped place := by
    simp only [requireMapped, contains_congr sameBase sameSize, unmapped, limit, sameBase, sameSize]
  simp only [requireAccess, mapped]

theorem loadWord_of_access (access : image.requireAccess .word address = .ok ()) :
    image.loadWord address = .ok (image.order.word (image.byte address) (image.byte (address + 1))
      (image.byte (address + 2)) (image.byte (address + 3))) := by
  simp [loadWord, access, bind, Except.bind, pure, Except.pure]

theorem storeWord_of_access (access : image.requireAccess .word address = .ok ()) :
    image.storeWord address value = .ok ((((image.setByte address (image.order.byteOfWord value 0)).setByte
      (address + 1) (image.order.byteOfWord value 1)).setByte (address + 2)
      (image.order.byteOfWord value 2)).setByte (address + 3) (image.order.byteOfWord value 3)) := by
  simp [storeWord, access, bind, Except.bind, pure, Except.pure]

theorem access_of_storeWord (stored : image.storeWord address value = .ok after) :
    image.requireAccess .word address = .ok () := by
  cases access : image.requireAccess .word address with
  | error fault => simp [storeWord, access, bind, Except.bind] at stored
  | ok _ => rfl

theorem storeWord_of_no_access {fault : Fault} (denied : image.requireAccess .word address = .error fault) :
    image.storeWord address value = .error fault := by
  simp [storeWord, denied, bind, Except.bind]

/-- A store keeps the shape of the image, so the same accesses can be made. -/
theorem requireAccess_of_storeWord (stored : image.storeWord address value = .ok after) :
    after.requireAccess size other = image.requireAccess size other := by
  rw [storeWord_of_access (access_of_storeWord stored)] at stored
  cases stored
  rfl

theorem shape_of_storeWord (stored : image.storeWord address value = .ok after) :
    after.base = image.base ∧ after.size = image.size ∧ after.order = image.order := by
  rw [storeWord_of_access (access_of_storeWord stored)] at stored
  cases stored
  exact ⟨rfl, rfl, rfl⟩

theorem loadWord_of_storeWord (stored : image.storeWord address value = .ok after) :
    after.loadWord address = .ok value := by
  have access := access_of_storeWord stored
  rw [loadWord_of_access ((requireAccess_of_storeWord stored).trans access)]
  rw [storeWord_of_access access] at stored
  cases stored
  have one : address ≠ address + 1 := by bv_omega
  have two : address ≠ address + 2 ∧ address + 1 ≠ address + 2 := by constructor <;> bv_omega
  have three : address ≠ address + 3 ∧ address + 1 ≠ address + 3 ∧ address + 2 ≠ address + 3 := by
    refine ⟨?_, ?_, ?_⟩ <;> bv_omega
  simp only [byte_setByte, one, two, three, if_true, if_false]
  exact congrArg Except.ok (ByteOrder.word_byteOfWord image.order value)

/-- Words that start at different multiples of four have no byte in common. -/
theorem loadWord_of_storeWord_of_ne (stored : image.storeWord address value = .ok after) (apart : other ≠ address) :
    after.loadWord other = image.loadWord other := by
  have access := access_of_storeWord stored
  have aligned := (requireAccess_eq_ok_iff.mp access).1
  cases elsewhere : image.requireAccess .word other with
  | error fault =>
      have shape : after.requireAccess .word other = image.requireAccess .word other := requireAccess_of_storeWord stored
      simp [loadWord, shape, elsewhere, bind, Except.bind]
  | ok _ =>
      have otherAligned := (requireAccess_eq_ok_iff.mp elsewhere).1
      simp only [AccessSize.bytes] at aligned otherAligned
      have disjoint (place shift : Word) (_ : place.toNat < 4) (_ : shift.toNat < 4) :
          other + place ≠ address + shift := by bv_omega
      have bytes (place : Word) (within : place.toNat < 4) : after.byte (other + place) = image.byte (other + place) := by
        have zero : other + place ≠ address := by simpa using disjoint place 0 within (by decide)
        have one := disjoint place 1 within (by decide)
        have two := disjoint place 2 within (by decide)
        have three := disjoint place 3 within (by decide)
        rw [storeWord_of_access access] at stored
        cases stored
        simp only [byte_setByte, zero, one, two, three, if_false]
      have first : after.byte other = image.byte other := by simpa using bytes 0 (by decide)
      rw [loadWord_of_access ((requireAccess_of_storeWord stored).trans elsewhere), loadWord_of_access elsewhere,
        first, bytes 1 (by decide), bytes 2 (by decide), bytes 3 (by decide), (shape_of_storeWord stored).2.2]

/-! ### Words back to back -/

/-- The address of the word with an index, counted from an address up. -/
def wordAddress (address : Word) (index : Nat) : Word := address + BitVec.ofNat 32 (4 * index)

theorem wordAddress_zero : wordAddress address 0 = address := by simp [wordAddress]

theorem wordAddress_succ (index : Nat) : wordAddress address (index + 1) = wordAddress (address + 4) index := by
  simp only [wordAddress]
  bv_omega

theorem wordAddress_ne {index : Nat} (positive : 0 < index) (bound : 4 * index < Word.bound) :
    wordAddress address index ≠ address := by
  simp only [wordAddress, Word.bound] at *
  bv_omega

/-- The words can be loaded from an address on. -/
def HoldsWords (image : Image) (address : Word) (values : List Word) : Prop :=
  ∀ index (_ : index < values.length), image.loadWord (wordAddress address index) = .ok values[index]

/-- Words that may each be stored are all there after they were stored in a row, and what can be loaded elsewhere is
as it was. -/
theorem exists_storeWords (access : ∀ index < values.length,
      image.requireAccess .word (wordAddress address index) = .ok ())
    (bound : 4 * values.length ≤ Word.bound) :
    ∃ after, image.storeWords address values = .ok after ∧ after.base = image.base ∧ after.size = image.size ∧
      after.order = image.order ∧ after.HoldsWords address values ∧
      ∀ other, (∀ index < values.length, other ≠ wordAddress address index) →
        after.loadWord other = image.loadWord other := by
  induction values generalizing image address with
  | nil => exact ⟨image, rfl, rfl, rfl, rfl, by simp [HoldsWords], by simp⟩
  | cons value rest ih =>
      simp only [List.length_cons] at access bound
      obtain ⟨middle, stored⟩ : ∃ middle, image.storeWord address value = .ok middle := by
        have first := access 0 (Nat.succ_pos _)
        rw [wordAddress_zero] at first
        exact ⟨_, storeWord_of_access first⟩
      obtain ⟨sameBase, sameSize, sameOrder⟩ := shape_of_storeWord stored
      obtain ⟨after, rested, base, size, order, loads, others⟩ := @ih middle (address + 4)
        (fun index within => by
          rw [requireAccess_of_storeWord stored, ← wordAddress_succ]
          exact access (index + 1) (Nat.succ_lt_succ within))
        (by omega)
      refine ⟨after, ?_, base.trans sameBase, size.trans sameSize, order.trans sameOrder, ?_, ?_⟩
      · rw [storeWords, stored]
        exact rested
      · intro index within
        cases index with
        | zero =>
            have untouched := others address fun index below => by
              rw [← wordAddress_succ]
              exact (wordAddress_ne (Nat.succ_pos index) (by omega)).symm
            rw [wordAddress_zero, untouched, loadWord_of_storeWord stored]
            rfl
        | succ index =>
            rw [wordAddress_succ]
            exact loads index (Nat.lt_of_succ_lt_succ within)
      · intro other apart
        have first := apart 0 (Nat.succ_pos _)
        rw [wordAddress_zero] at first
        rw [others other fun index below => ?_, loadWord_of_storeWord_of_ne stored first]
        rw [← wordAddress_succ]
        exact apart (index + 1) (Nat.succ_lt_succ below)

theorem access_of_storeWords (stored : image.storeWords address values = .ok after) :
    ∀ index < values.length, image.requireAccess .word (wordAddress address index) = .ok () := by
  induction values generalizing image address with
  | nil => simp
  | cons value rest ih =>
      cases first : image.storeWord address value with
      | error fault => simp [storeWords, first, bind, Except.bind] at stored
      | ok middle =>
          rw [storeWords, first] at stored
          intro index within
          cases index with
          | zero =>
              rw [wordAddress_zero]
              exact access_of_storeWord first
          | succ index =>
              rw [wordAddress_succ, ← requireAccess_of_storeWord first]
              exact ih stored index (Nat.lt_of_succ_lt_succ within)

theorem holdsWords_of_storeWords (bound : 4 * values.length ≤ Word.bound)
    (stored : image.storeWords address values = .ok after) : after.HoldsWords address values := by
  obtain ⟨found, same, -, -, -, holds, -⟩ := exists_storeWords (access_of_storeWords stored) bound
  rw [stored] at same
  cases same
  exact holds

theorem toNat_wordAddress {index : Nat} (bound : base.toNat + 4 * index < Word.bound) :
    (wordAddress base index).toNat = base.toNat + 4 * index := by
  simp only [wordAddress, Word.bound] at *
  bv_omega

/-- Whether a word can be stored at each address of a row is a matter of its two ends. -/
theorem access_of_inside (aligned : address.toNat % 4 = 0) (above : image.base.toNat ≤ address.toNat)
    (below : address.toNat + 4 * values.length ≤ image.limit) :
    ∀ index < values.length, image.requireAccess .word (wordAddress address index) = .ok () := by
  intro index within
  have limit : image.limit ≤ Word.bound := image.fits
  rw [requireAccess_eq_ok_iff, toNat_wordAddress (by omega)]
  simp only [AccessSize.bytes]
  omega

/-- Words that lie within the image are copied into it. There must be one at least, since no word at all is refused at
the end of the image. -/
theorem exists_loadWords (some_word : values ≠ []) (aligned : address.toNat % 4 = 0)
    (above : image.base.toNat ≤ address.toNat) (below : address.toNat + 4 * values.length ≤ image.limit) :
    ∃ after, image.loadWords address values = .ok after ∧ after.base = image.base ∧ after.size = image.size ∧
      after.order = image.order ∧ after.HoldsWords address values ∧
      ∀ other, (∀ index < values.length, other ≠ wordAddress address index) →
        after.loadWord other = image.loadWord other := by
  have positive : 0 < values.length := List.length_pos_iff.mpr some_word
  have limit : image.limit ≤ Word.bound := image.fits
  have room : (image.contains address && address.toNat + 4 * values.length ≤ image.limit) = true := by
    simp only [Bool.and_eq_true, decide_eq_true_eq, contains_iff]
    omega
  obtain ⟨after, stored, rest⟩ := exists_storeWords (access_of_inside aligned above below) (by omega)
  refine ⟨after, ?_, rest⟩
  rw [loadWords, if_pos room, stored]
  rfl

theorem zeroed_of_fits (order : ByteOrder) {size : Nat} (fits : base.toNat + size ≤ Word.bound) :
    zeroed base size order = .ok { base, size, cells := .all 0, order, fits } := by
  have capacious : size < capacity := by
    have bounds : Word.bound < capacity := by decide
    omega
  simp [zeroed, capacious, ofBytesPadded, fits, Cells.setFrom]

/-- Words that fit above an aligned base make an image that holds them and nothing else. There must be one at least,
since an empty image has no place to put them. -/
theorem exists_ofWords (order : ByteOrder) (some_word : values ≠ []) (aligned : base.toNat % 4 = 0)
    (fits : base.toNat + 4 * values.length ≤ Word.bound) :
    ∃ image, ofWords base values order = .ok image ∧ image.base = base ∧ image.size = 4 * values.length ∧
      image.order = order ∧ image.HoldsWords base values := by
  obtain ⟨image, loaded, sameBase, size, ordered, loads, -⟩ := @exists_loadWords
    { base, size := 4 * values.length, cells := .all 0, order, fits } base values some_word aligned (Nat.le_refl _)
    (Nat.le_refl _)
  refine ⟨image, ?_, sameBase, size, ordered, loads⟩
  rw [ofWords, zeroed_of_fits order fits]
  exact loaded

end Memory.Image
end Arm32
