import Mathlib.Data.List.TakeWhile
import Arm32.Listing

/-! A listing as a row of blocks, one for each word: the label of its offset if a branch leads there, its comments,
and its instruction. Which comments a block has is a matter of the comments alone. -/

namespace Arm32.Listing

variable {settings : ListingSettings} {words : List Word} {comments : List Comment} {destinations : List Int}
  {index : Nat} {word : Word}

/-- The lines of the word with an index, with these comments. -/
def block (settings : ListingSettings) (destinations : List Int) (comments : List Comment) (index : Nat) (word : Word) :
    List Line :=
  labelLines destinations (offsetOf index) ++ comments.map (Line.comment ·.text) ++
    [.instruction (disassemble settings word) ((target? index word).bind (labelAt? destinations))]

/-- The comments that the words before an index leave over. -/
def remaining (comments : List Comment) : Nat → List Comment
  | 0 => comments
  | index + 1 => (pending (remaining comments index) (offsetOf index)).dropWhile (commentOffset · == offsetOf index)

/-- The comments of the word with an index. -/
def attached (comments : List Comment) (index : Nat) : List Comment :=
  (pending (remaining comments index) (offsetOf index)).takeWhile (commentOffset · == offsetOf index)

theorem remaining_sublist (comments : List Comment) (index : Nat) : (remaining comments index).Sublist comments := by
  induction index with
  | zero => exact List.Sublist.refl comments
  | succ index ih => exact ((List.dropWhile_sublist _).trans (List.dropWhile_sublist _)).trans ih

/-- A comment above a word is one of those given, and its offset is that of the word. -/
theorem mem_of_mem_attached {comment : Comment} (member : comment ∈ attached comments index) :
    comment ∈ comments ∧ commentOffset comment = offsetOf index := by
  constructor
  · have waiting : comment ∈ pending (remaining comments index) (offsetOf index) :=
      (List.takeWhile_sublist _).subset member
    exact (remaining_sublist comments index).subset ((List.dropWhile_sublist _).subset waiting)
  · exact beq_iff_eq.mp (@List.mem_takeWhile_imp _ (commentOffset · == offsetOf index) _ _ member)

/-- The blocks of words from an index on, each with the comments of its place. -/
def blocks (settings : ListingSettings) (destinations : List Int) (notes : Nat → List Comment) (index : Nat)
    (words : List Word) : List Line :=
  (words.zipIdx index).flatMap fun (word, place) => block settings destinations (notes place) place word

variable {notes : Nat → List Comment} {first rest : List Word}

theorem blocks_cons :
    blocks settings destinations notes index (word :: rest) =
      block settings destinations (notes index) index word ++ blocks settings destinations notes (index + 1) rest := by
  simp only [blocks, List.zipIdx_cons, List.flatMap_cons]

theorem blocks_append :
    blocks settings destinations notes index (first ++ rest) =
      blocks settings destinations notes index first ++ blocks settings destinations notes (index + first.length) rest := by
  simp only [blocks, List.zipIdx_append, List.flatMap_append]

theorem linesFrom_eq_blocks :
    linesFrom settings destinations index (remaining comments index) words =
      blocks settings destinations (attached comments) index words := by
  induction words generalizing index with
  | nil => rfl
  | cons word rest ih =>
      have later := @ih (index + 1)
      rw [remaining] at later
      simp only [linesFrom, blocks_cons, block, attached, later, List.append_assoc, List.cons_append, List.nil_append]

theorem lines_eq_blocks :
    lines settings words comments = blocks settings (targets words) (attached comments) 0 words :=
  linesFrom_eq_blocks

def Line.isInstruction : Line → Bool
  | instruction _ _ => true
  | _ => false

theorem countP_isInstruction_above {address : Int} :
    (labelLines destinations address ++ comments.map (Line.comment ·.text)).countP Line.isInstruction = 0 := by
  have label : (labelLines destinations address).countP Line.isInstruction = 0 := by
    unfold labelLines
    split <;> rfl
  have above : (comments.map (Line.comment ·.text)).countP Line.isInstruction = 0 := by
    simp [List.countP_map, Function.comp_def, Line.isInstruction]
  rw [List.countP_append, label, above]

theorem countP_isInstruction_block :
    (block settings destinations comments index word).countP Line.isInstruction = 1 := by
  rw [block, List.countP_append, countP_isInstruction_above]
  rfl

theorem countP_isInstruction_blocks :
    (blocks settings destinations notes index words).countP Line.isInstruction = words.length := by
  induction words generalizing index with
  | nil => rfl
  | cons word rest ih =>
      rw [blocks_cons, List.countP_append, countP_isInstruction_block, ih, List.length_cons, Nat.add_comm]

/-- The block of a word stands behind as many instructions as there are words before it. -/
theorem exists_blocks_eq_append (settings : ListingSettings) (destinations : List Int) (notes : Nat → List Comment)
    (placed : words[index]? = some word) :
    ∃ before after,
      blocks settings destinations notes 0 words =
        before ++ block settings destinations (notes index) index word ++ after ∧
      before.countP Line.isInstruction = index := by
  obtain ⟨within, rfl⟩ := List.getElem?_eq_some_iff.mp placed
  have length : (words.take index).length = index := List.length_take_of_le (Nat.le_of_lt within)
  refine ⟨blocks settings destinations notes 0 (words.take index),
    blocks settings destinations notes (index + 1) (words.drop (index + 1)), ?_, ?_⟩
  · calc blocks settings destinations notes 0 words
      _ = blocks settings destinations notes 0 (words.take index ++ words[index] :: words.drop (index + 1)) := by
        rw [List.getElem_cons_drop, List.take_append_drop]
      _ = _ := by rw [blocks_append, blocks_cons, length, Nat.zero_add, List.append_assoc]
  · rw [countP_isInstruction_blocks, length]

end Arm32.Listing
