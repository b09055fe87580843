import Mathlib.Data.List.Forall2
import Arm32.Proofs.Memory.Words
import Arm32.Proofs.Safety.Memory

/-! Lists of words that are copied into an image and read back. A list replaces the words at its place, or it is refused
as a whole, also where an image is written to word after word; an image made of words is read back as the same words. -/

namespace Arm32.Memory

theorem mapM_eq_ok_iff {ε α β : Type} {function : α → Except ε β} {items : List α} {results : List β} :
    items.mapM function = .ok results ↔ List.Forall₂ (fun item result => function item = .ok result) items results := by
  induction items generalizing results with
  | nil => simp [pure, Except.pure, eq_comm]
  | cons item rest ih =>
      rw [List.mapM_cons]
      cases results with
      | nil =>
          cases function item <;> cases rest.mapM function <;> simp [bind, Except.bind, pure, Except.pure]
      | cons result results =>
          rw [List.forall₂_cons, ← ih]
          cases function item <;> cases rest.mapM function <;> simp [bind, Except.bind, pure, Except.pure]

theorem exists_segment {α : Type} {items : List α} {start count : Nat} (within : start + count ≤ items.length) :
    ∃ front segment back, items = front ++ segment ++ back ∧ front.length = start ∧ segment.length = count := by
  refine ⟨items.take start, (items.drop start).take count, (items.drop start).drop count, ?_, ?_, ?_⟩
  · rw [List.append_assoc, List.take_append_drop, List.take_append_drop]
  · simp only [List.length_take]
    omega
  · simp only [List.length_take, List.length_drop]
    omega

namespace Image

variable {image after : Image} {address base : Word} {values front back : List Word} {order : ByteOrder}

/-! ### Words back to back -/

theorem wordAddress_add (first second : Nat) :
    wordAddress (wordAddress address first) second = wordAddress address (first + second) := by
  simp only [wordAddress]
  bv_omega

theorem holdsWords_append :
    image.HoldsWords address (front ++ back) ↔
      image.HoldsWords address front ∧ image.HoldsWords (wordAddress address front.length) back := by
  constructor
  · intro holds
    constructor
    · intro index below
      rw [holds index (by rw [List.length_append]; omega), List.getElem_append_left below]
    · intro index below
      rw [wordAddress_add, holds (front.length + index) (by rw [List.length_append]; omega),
        List.getElem_append_right (Nat.le_add_right _ _)]
      simp
  · rintro ⟨first, second⟩ index below
    by_cases inside : index < front.length
    · rw [List.getElem_append_left inside, first index inside]
    · rw [List.length_append] at below
      have place : front.length + (index - front.length) = index := by omega
      rw [List.getElem_append_right (by omega), ← second (index - front.length) (by omega), wordAddress_add, place]

/-- The words of an image are those that lie back to back from its base to its end. -/
theorem words_eq_ok_iff :
    image.words = .ok values ↔ image.size = 4 * values.length ∧ image.HoldsWords image.base values := by
  unfold words
  by_cases whole : image.size % 4 = 0
  · have found (result : Except Fault (List Word)) :
        result.mapError ImageError.access = .ok values ↔ result = .ok values := by
      cases result <;> simp [Except.mapError]
    rw [if_neg (not_not_intro whole), found, mapM_eq_ok_iff, List.forall₂_iff_get]
    simp only [List.length_range, List.get_eq_getElem, List.getElem_range]
    constructor
    · rintro ⟨length, words⟩
      exact ⟨by omega, fun index below => words index (by omega) below⟩
    · rintro ⟨size, holds⟩
      exact ⟨by omega, fun index _ below => holds index below⟩
  · rw [if_pos whole]
    constructor
    · intro impossible
      cases impossible
    · rintro ⟨size, -⟩
      omega

theorem exists_words (aligned : image.base.toNat % 4 = 0) (whole : image.size % 4 = 0) :
    ∃ values, image.words = .ok values := by
  let wordAt (address : Word) : Word := image.order.word (image.byte address) (image.byte (address + 1))
    (image.byte (address + 2)) (image.byte (address + 3))
  let values := (List.range (image.size / 4)).map fun index => wordAt (wordAddress image.base index)
  have length : values.length = image.size / 4 := by simp [values]
  refine ⟨values, words_eq_ok_iff.mpr ⟨by omega, fun index below => ?_⟩⟩
  have inside : image.base.toNat + 4 * values.length ≤ image.limit := by
    rw [limit]
    omega
  rw [loadWord_of_access (access_of_inside aligned (Nat.le_refl _) inside index below)]
  simp [values, wordAt]

/-! ### Copying -/

/-- All addresses that a list of words takes up from an address on lie in the image. -/
def Takes (image : Image) (address : Word) (values : List Word) : Prop :=
  image.base.toNat ≤ address.toNat ∧ address.toNat + 4 * values.length ≤ image.limit

theorem loadWords_refused (outside : ¬ image.Takes address values) :
    image.loadWords address values = .error (.setup (.addressOutOfRange address image.base image.limit)) := by
  refine if_neg fun room => outside ?_
  simp only [Bool.and_eq_true, decide_eq_true_eq, contains_iff] at room
  exact ⟨room.1.1, room.2⟩

/-- A list stands in for the words that were at its place. -/
structure Replaced (image : Image) (address : Word) (values : List Word) (after : Image) : Prop where
  base : after.base = image.base
  size : after.size = image.size
  order : after.order = image.order
  words : ∃ front old back, image.words = .ok (front ++ old ++ back) ∧ after.words = .ok (front ++ values ++ back) ∧
    address.toNat = image.base.toNat + 4 * front.length ∧ old.length = values.length

theorem replaced_of_loadWords (some_word : values ≠ []) (alignedBase : image.base.toNat % 4 = 0)
    (whole : image.size % 4 = 0) (aligned : address.toNat % 4 = 0) (takes : image.Takes address values) :
    ∃ after, image.loadWords address values = .ok after ∧ image.Replaced address values after := by
  obtain ⟨after, loaded, base, size, order, holds, others⟩ := exists_loadWords some_word aligned takes.1 takes.2
  have positive : 0 < values.length := List.length_pos_iff.mpr some_word
  have limit : image.limit = image.base.toNat + image.size := rfl
  have bound : image.limit ≤ Word.bound := image.fits
  obtain ⟨above, below⟩ := takes
  obtain ⟨words, read⟩ := image.exists_words alignedBase whole
  obtain ⟨length, held⟩ := words_eq_ok_iff.mp read
  have room : (address.toNat - image.base.toNat) / 4 + values.length ≤ words.length := by omega
  obtain ⟨front, old, back, rfl, start, count⟩ := exists_segment room
  rw [holdsWords_append, holdsWords_append, List.length_append] at held
  rw [List.length_append, List.length_append] at length
  have place : wordAddress image.base front.length = address :=
    BitVec.eq_of_toNat_eq (by rw [toNat_wordAddress (by omega)]; omega)
  -- The words before the list and those after it are at other addresses.
  have kept {index : Nat} (below : index < front.length ∨ front.length + values.length ≤ index)
      (within : 4 * index < image.size) :
      after.loadWord (wordAddress image.base index) = image.loadWord (wordAddress image.base index) := by
    refine others _ fun other inside same => ?_
    rw [← place, wordAddress_add] at same
    have distance := congrArg BitVec.toNat same
    rw [toNat_wordAddress (by omega), toNat_wordAddress (by omega)] at distance
    omega
  refine ⟨after, loaded, base, size, order, front, old, back, read, ?_, by omega, count⟩
  rw [words_eq_ok_iff, holdsWords_append, holdsWords_append, base, List.length_append, List.length_append]
  refine ⟨by omega, ⟨?_, ?_⟩, ?_⟩
  · intro index inside
    rw [kept (.inl inside) (by omega), held.1.1 index inside]
  · rw [place]
    exact holds
  · intro index inside
    rw [wordAddress_add, kept (.inr (by omega)) (by omega), ← wordAddress_add, ← count]
    exact held.2 index inside

/-! ### Copying in place -/

open Bits (checkedAdd checkedMul)

/-- A computation on an image in place. What was written before an error stays there. -/
abbrev InPlace (α : Type) := ExceptT ImageError (StateT Image Option) α

namespace InPlace

def storeWord (address value : Word) : InPlace Unit := do
  let image ← get
  match ← (image.checkedStoreWord address value).run with
  | .ok after => set after
  | .error fault => throw (.access fault)

/-- Stores words one by one, each at its distance from the address. -/
def storeWords (address : Word) (index : Index) : List Word → InPlace Unit
  | [] => return ()
  | value :: rest => do
    let distance ← checkedMul (index.setWidth 32) 4#32
    let place ← checkedAdd address distance
    storeWord place value
    let next ← checkedAdd index 1#64
    storeWords address next rest

/-- Looks at both ends of the list before it stores the first word. -/
def loadWords (address : Word) (values : List Word) : InPlace Unit := do
  let image ← get
  let length ← checkedMul (BitVec.ofNat 64 values.length) 4#64
  let last ← checkedAdd (address.setWidth 64) length
  let mapped ← image.checkedContains address
  let limit ← image.checkedLimit
  if mapped && last.toNat ≤ limit.toNat then storeWords address 0#64 values
  else throw (.setup (.addressOutOfRange address image.base image.limit))

end InPlace

/-- What a computation gives, and the image that it leaves. None if it breaks down. -/
def perform {α : Type} (image : Image) (computation : InPlace α) : Option (Except ImageError α × Image) :=
  computation.run.run image

/-- A copy leaves the new image, or the old one as it was. -/
def settled (image : Image) : Except ImageError Image → Except ImageError Unit × Image
  | .ok after => (.ok (), after)
  | .error error => (.error error, image)

theorem perform_bind {α β : Type} {first : InPlace α} {next : α → InPlace β} {value : α}
    (done : image.perform first = some (.ok value, after)) :
    image.perform (first >>= next) = after.perform (next value) := by
  unfold perform at done
  rw [perform, ExceptT.run_bind, StateT.run_bind, done]
  rfl

theorem perform_get : image.perform get = some (.ok image, image) := rfl

theorem perform_lift {α : Type} {result : Option α} {value : α} (found : result = some value) :
    image.perform (liftM result) = some (.ok value, image) := by
  subst found
  rfl

theorem perform_storeWord {value : Word} (stored : image.storeWord address value = .ok after) :
    image.perform (InPlace.storeWord address value) = some (.ok (), after) := by
  have checked : (image.checkedStoreWord address value).run = some (.ok after) := by
    rw [checkedStoreWord_eq, stored]
    rfl
  rw [InPlace.storeWord, perform_bind perform_get, perform_bind (perform_lift checked)]
  rfl

theorem perform_storeWords {index : Nat} (stored : image.storeWords (wordAddress address index) values = .ok after)
    (bound : address.toNat + 4 * (index + values.length) ≤ Word.bound) :
    image.perform (InPlace.storeWords address (BitVec.ofNat 64 index) values) = some (.ok (), after) := by
  induction values generalizing image index with
  | nil =>
      cases stored
      rfl
  | cons value rest ih =>
      rw [List.length_cons] at bound
      simp only [Word.bound] at bound
      -- Each place is counted from the first address, and all of them are in range.
      have distance : checkedMul ((BitVec.ofNat 64 index).setWidth 32) 4#32 = some (BitVec.ofNat 32 (4 * index)) := by
        rw [BitVec.setWidth_ofNat_of_le (by decide), Nat.mul_comm]
        exact Bits.checkedMul_ofNat (by omega)
      have place : checkedAdd address (BitVec.ofNat 32 (4 * index)) = some (wordAddress address index) := by
        refine Bits.checkedAdd_eq ?_
        rw [BitVec.toNat_ofNat]
        omega
      have next : checkedAdd (BitVec.ofNat 64 index) 1#64 = some (BitVec.ofNat 64 (index + 1)) :=
        Bits.checkedAdd_ofNat (by omega)
      cases first : image.storeWord (wordAddress address index) value with
      | error fault => simp [Image.storeWords, first, bind, Except.bind] at stored
      | ok middle =>
          have others : middle.storeWords (wordAddress address (index + 1)) rest = .ok after := by
            rw [storeWords, first] at stored
            rw [← wordAddress_add, ← stored]
            rfl
          rw [InPlace.storeWords, perform_bind (perform_lift distance), perform_bind (perform_lift place),
            perform_bind (perform_storeWord first), perform_bind (perform_lift next)]
          exact ih others (by simp only [Word.bound]; omega)

/-- Copying in place comes to the same as copying. -/
theorem perform_loadWords (aligned : address.toNat % 4 = 0) (bounded : 4 * values.length < capacity) :
    image.perform (InPlace.loadWords address values) = some (image.settled (image.loadWords address values)) := by
  have fits : image.limit ≤ Word.bound := image.fits
  simp only [capacity, Word.bound] at bounded fits
  have below : address.toNat < 4294967296 := address.isLt
  have length : checkedMul (BitVec.ofNat 64 values.length) 4#64 = some (BitVec.ofNat 64 (values.length * 4)) :=
    Bits.checkedMul_ofNat (by omega)
  have last : checkedAdd (address.setWidth 64) (BitVec.ofNat 64 (values.length * 4)) =
      some (BitVec.ofNat 64 (address.toNat + values.length * 4)) := by
    rw [← BitVec.ofNat_toNat]
    exact Bits.checkedAdd_ofNat (by omega)
  have lastNumber : (BitVec.ofNat 64 (address.toNat + values.length * 4)).toNat = address.toNat + 4 * values.length := by
    rw [BitVec.toNat_ofNat]
    omega
  obtain ⟨limit, found, limitNumber⟩ := image.exists_checkedLimit
  rw [InPlace.loadWords, perform_bind perform_get, perform_bind (perform_lift length), perform_bind (perform_lift last),
    perform_bind (perform_lift checkedContains_eq), perform_bind (perform_lift found), lastNumber, limitNumber]
  by_cases room : (image.contains address && decide (address.toNat + 4 * values.length ≤ image.limit)) = true
  · rw [if_pos room, loadWords, if_pos room]
    simp only [Bool.and_eq_true, decide_eq_true_eq, contains_iff] at room
    have bound : 4 * values.length ≤ Word.bound := by
      simp only [Word.bound]
      omega
    obtain ⟨after, stored, -⟩ := exists_storeWords (access_of_inside aligned room.1.1 room.2) bound
    rw [stored]
    exact perform_storeWords (by rw [wordAddress_zero, stored]) (by simp only [Word.bound]; omega)
  · rw [if_neg room, loadWords, if_neg room]
    rfl

/-! ### Main results -/

/-- A list of words is copied exactly if all its addresses lie in the image, also where they would run past the greatest
address. In place, a copy that is refused leaves the image as it was, and none breaks down. -/
theorem loadWords_all_or_nothing (alignedBase : image.base.toNat % 4 = 0) (whole : image.size % 4 = 0)
    (aligned : address.toNat % 4 = 0) (some_word : values ≠ []) :
    (image.Takes address values →
        ∃ after, image.loadWords address values = .ok after ∧ image.Replaced address values after) ∧
      (¬ image.Takes address values →
        image.loadWords address values = .error (.setup (.addressOutOfRange address image.base image.limit))) ∧
      (4 * values.length < capacity →
        image.perform (InPlace.loadWords address values) = some (image.settled (image.loadWords address values))) :=
  ⟨replaced_of_loadWords some_word alignedBase whole aligned, loadWords_refused, perform_loadWords aligned⟩

/-- The two greatest words. -/
def atTop : Image := { base := 0xfffffff8, size := 8, cells := .all 0, order := .big, fits := by decide }

/-- One word fits behind the first, two do not. -/
theorem loadWords_all_or_nothing_at_top :
    (∃ after, atTop.loadWords 0xfffffffc [7] = .ok after ∧ atTop.Replaced 0xfffffffc [7] after) ∧
      atTop.perform (InPlace.loadWords 0xfffffffc [7, 8]) =
        some (.error (.setup (.addressOutOfRange 0xfffffffc 0xfffffff8 0x100000000)), atTop) := by
  have fitting := @loadWords_all_or_nothing atTop 0xfffffffc [7] rfl rfl rfl (by decide)
  have passing := @loadWords_all_or_nothing atTop 0xfffffffc [7, 8] rfl rfl rfl (by decide)
  have refused := passing.2.1 fun takes => absurd takes.2 (by decide)
  refine ⟨fitting.1 ⟨by decide, by decide⟩, ?_⟩
  rw [passing.2.2 (by decide), refused]
  rfl

/-- Words that fit the addresses above their base make an image that is read back as the same words, but for no word at
all: an image of that size can be made, and yet it is refused. -/
theorem ofWords_round_trip (order : ByteOrder) (aligned : base.toNat % 4 = 0)
    (fits : base.toNat + 4 * values.length ≤ Word.bound) :
    (values ≠ [] → ∃ image, ofWords base values order = .ok image ∧ image.base = base ∧ image.order = order ∧
        image.size = 4 * values.length ∧ image.words = .ok values) ∧
      (values = [] → ofWords base values order = .error (.setup (.addressOutOfRange base base base.toNat)) ∧
        ∃ image, ofBytes base [] order = .ok image ∧ image.words = .ok []) := by
  constructor
  · intro some_word
    obtain ⟨image, made, sameBase, size, ordered, holds⟩ := exists_ofWords order some_word aligned fits
    exact ⟨image, made, sameBase, ordered, size, words_eq_ok_iff.mpr ⟨size, by rwa [sameBase]⟩⟩
  · rintro rfl
    have empty : base.toNat + 0 ≤ Word.bound := fits
    refine ⟨?_, { base, size := 0, cells := .all 0, order, fits := empty }, ?_, ?_⟩
    · rw [ofWords, List.length_nil, Nat.mul_zero, zeroed_of_fits order empty]
      simp [loadWords, contains, limit, Except.mapError, bind, Except.bind]
    · exact dif_pos empty
    · exact words_eq_ok_iff.mpr ⟨rfl, fun index below => absurd below (Nat.not_lt_zero index)⟩

/-- One word at the greatest address that has room for it. -/
theorem ofWords_round_trip_at_top :
    ∃ image, ofWords 0xfffffffc [0x12345678] .big = .ok image ∧ image.base = 0xfffffffc ∧ image.order = .big ∧
      image.size = 4 ∧ image.words = .ok [0x12345678] :=
  (ofWords_round_trip .big rfl (by decide)).1 (by decide)

/-- Not every list of words that fits makes an image. The empty one does not, although there is an image of no bytes, and
it is read back as no words. -/
theorem ofWords_nil_refused :
    ¬ (∀ (base : Word) (values : List Word) (order : ByteOrder), base.toNat % 4 = 0 →
        base.toNat + 4 * values.length ≤ Word.bound →
        ∃ image, ofWords base values order = .ok image ∧ image.size = 4 * values.length ∧ image.words = .ok values) ∧
      ofWords 0x1000 [] .little = .error (.setup (.addressOutOfRange 0x1000 0x1000 0x1000)) := by
  have refused : ofWords 0x1000 [] .little = .error (.setup (.addressOutOfRange 0x1000 0x1000 0x1000)) := rfl
  refine ⟨fun every => ?_, refused⟩
  obtain ⟨image, made, -⟩ := every 0x1000 [] .little rfl (by decide)
  cases refused.symm.trans made

end Image
end Arm32.Memory
