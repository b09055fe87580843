import Arm32.Proofs.Memory.Words
import Arm32.Proofs.Simulation.Alike

/-! Byte order and words. Two images that hold the same words, one in each byte order, differ in nearly all of their
bytes; but every access to a word finds and leaves them with the same words. So a program that moves only words cannot
tell the two byte orders apart. -/

namespace Arm32

namespace Memory.Image

variable {one other : ByteOrder} {first second : Image} {base address value : Word} {size : Nat}

/-- Images of one shape that hold the same words, each in a byte order of its own. -/
structure SameWords (one other : ByteOrder) (first second : Image) : Prop where
  base : first.base = second.base
  size : first.size = second.size
  firstOrder : first.order = one
  secondOrder : second.order = other
  word : ∀ address, first.loadWord address = second.loadWord address

theorem SameWords.storeWord (same : SameWords one other first second) (address value : Word) :
    Agree (SameWords one other) (first.storeWord address value) (second.storeWord address value) := by
  -- Where a word may be stored is a matter of the shape, which the images share.
  have accesses := requireAccess_congr same.base same.size .word address
  cases access : first.requireAccess .word address with
  | error fault =>
      rw [storeWord_of_no_access access, storeWord_of_no_access (accesses ▸ access)]
      exact .errors fault
  | ok _ =>
      have firstStored : first.storeWord address value = _ := storeWord_of_access access
      have secondStored : second.storeWord address value = _ := storeWord_of_access (accesses ▸ access)
      rw [firstStored, secondStored]
      refine .answers ⟨same.base, same.size, same.firstOrder, same.secondOrder, ?_⟩
      intro place
      by_cases here : place = address
      · rw [here, loadWord_of_storeWord firstStored, loadWord_of_storeWord secondStored]
      · rw [loadWord_of_storeWord_of_ne firstStored here, loadWord_of_storeWord_of_ne secondStored here, same.word]

theorem SameWords.wordsAgree (one other : ByteOrder) : WordsAgree (SameWords one other) where
  load same := same.word
  store same := same.storeWord

theorem SameWords.storeWords (same : SameWords one other first second) (address : Word) (values : List Word) :
    Agree (SameWords one other) (first.storeWords address values) (second.storeWords address values) := by
  induction values generalizing first second address with
  | nil => exact .answers same
  | cons value rest ih => exact (same.storeWord address value).bind fun before after stored => ih stored (address + 4)

theorem withOrder_self {image : Image} (same : image.order = one) : image.withOrder one = image := by
  subst same
  rfl

theorem loadWord_of_blank {image : Image} (blank : ∀ address, image.byte address = 0) (address : Word) :
    image.loadWord address = (image.requireAccess .word address).map fun _ => 0 := by
  have zero : image.order.word 0 0 0 0 = 0 := by cases image.order <;> decide
  cases access : image.requireAccess .word address with
  | error fault => simp [loadWord, access, bind, Except.bind, Except.map]
  | ok _ =>
      rw [loadWord_of_access access, blank, blank, blank, blank, zero]
      rfl

theorem zeroed_agree (one other : ByteOrder) (base : Word) (size : Nat) :
    Agree (SameWords one other) (zeroed base size one) (zeroed base size other) := by
  unfold zeroed ofBytesPadded
  by_cases capacious : size < capacity
  · simp only [if_pos capacious]
    by_cases fits : base.toNat + max size ([] : List Byte).length ≤ Word.bound
    · simp only [dif_pos fits]
      refine .answers ⟨rfl, rfl, rfl, rfl, ?_⟩
      intro address
      rw [loadWord_of_blank (fun _ => rfl), loadWord_of_blank (fun _ => rfl)]
      rfl
    · simp only [dif_neg fits]
      exact .errors _
  · simp only [if_neg capacious]
    exact .errors _

theorem ofWords_agree (one other : ByteOrder) (base : Word) (values : List Word) :
    Agree (SameWords one other) (ofWords base values one) (ofWords base values other) := by
  refine ((zeroed_agree one other base (4 * values.length)).mapError).bind ?_
  intro first second same
  have limit : first.limit = second.limit := by simp only [Image.limit, same.base, same.size]
  rw [loadWords, loadWords, contains_congr same.base same.size, limit, same.base]
  split
  · exact (same.storeWords base values).mapError
  · exact .errors _

end Memory.Image

namespace Emulator

/-- A new emulator with registers, flags and floating-point registers put in. -/
def ofState (settings : EmulatorSettings) (image : Memory.Image) (registers : Registers) (status : Psr)
    (vfp : Vfp.Registers) : Emulator :=
  let emulator := ofImage settings image
  { emulator with machine := { emulator.machine with registers, status, vfp } }

/-- The same words in either byte order make no image at all, or images on which a program goes the same way, for as long
as it moves only words. -/
theorem byteOrder_agree (processor : Processor) (trace : Bool) (base : Word) (values : List Word) :
    Agree (fun little big => ∀ registers status vfp count,
        avoids Instruction.movesPart count (ofState ⟨processor, .little, trace⟩ little registers status vfp) = true →
          Agree (Related (Machine.Alike (Memory.Image.SameWords .little .big) processor processor))
            ((ofState ⟨processor, .little, trace⟩ little registers status vfp).stepTimes count)
            ((ofState ⟨processor, .big, trace⟩ big registers status vfp).stepTimes count))
      (Memory.Image.ofWords base values .little) (Memory.Image.ofWords base values .big) := by
  refine (Memory.Image.ofWords_agree .little .big base values).mono ?_
  intro little big same registers status vfp count avoided
  refine stepTimes_alike (Memory.Image.SameWords.wordsAgree .little .big) ?_ ?_ ?_ avoided
  · intro instruction words part
    rw [words] at part
    cases part
  · exact fun _ _ _ => rfl
  · refine ⟨rfl, rfl, rfl, ?_, rfl, rfl⟩
    show Memory.Image.SameWords .little .big (little.withOrder .little) (big.withOrder .big)
    rwa [Memory.Image.withOrder_self same.firstOrder, Memory.Image.withOrder_self same.secondOrder]

/-- A store of the first register at the second, and a return. -/
def storeAndReturn : List Word := [0xE5810000, 0xE1A0F00E]

def storeRegisters : Registers := ((Registers.zero.write 0 0x11223344).write 1 0x1000).write Reg.pc 0x1000

theorem byteOrder_agree_storeAndReturn :
    ∃ little big, Memory.Image.ofWords 0x1000 storeAndReturn .little = .ok little ∧
      Memory.Image.ofWords 0x1000 storeAndReturn .big = .ok big ∧
      avoids Instruction.movesPart 2 (ofState ⟨.arm7, .little, false⟩ little storeRegisters ⟨0⟩ .zero) = true ∧
      Agree (Related (Machine.Alike (Memory.Image.SameWords .little .big) .arm7 .arm7))
        ((ofState ⟨.arm7, .little, false⟩ little storeRegisters ⟨0⟩ .zero).stepTimes 2)
        ((ofState ⟨.arm7, .big, false⟩ big storeRegisters ⟨0⟩ .zero).stepTimes 2) := by
  have agree := byteOrder_agree .arm7 false 0x1000 storeAndReturn
  obtain ⟨little, littleMade, avoided⟩ : ∃ little, Memory.Image.ofWords 0x1000 storeAndReturn .little = .ok little ∧
      avoids Instruction.movesPart 2 (ofState ⟨.arm7, .little, false⟩ little storeRegisters ⟨0⟩ .zero) = true :=
    ⟨_, rfl, rfl⟩
  obtain ⟨big, bigMade⟩ : ∃ big, Memory.Image.ofWords 0x1000 storeAndReturn .big = .ok big := ⟨_, rfl⟩
  rw [littleMade, bigMade] at agree
  cases agree with
  | answers same => exact ⟨little, big, littleMade, bigMade, avoided, same storeRegisters ⟨0⟩ .zero 2 avoided⟩

end Emulator

end Arm32
