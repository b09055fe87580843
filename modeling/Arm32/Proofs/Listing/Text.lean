import Arm32.Proofs.Disassembly.OneLine
import Arm32.Proofs.Listing.Blocks

/-! A listing as it is printed, row by row. How a row starts tells what it is: a definition of a label, a comment or an
instruction. No row but that of a comment can hold a line feed. -/

namespace Arm32

/-- The text is these rows, each ended by a line feed. -/
structure HasLines (text : String) (rows : List String) : Prop where
  text_eq : text = String.join (rows.map (· ++ "\n"))
  unbroken : ∀ row ∈ rows, Unbroken row

namespace Listing

def definitionRow (number : Nat) : String := ".label" ++ toString number ++ ":"

def commentRow (comment : Comment) : String := "  ;" ++ comment.text

/-- An instruction, with what is printed for its target. -/
def instructionRow (settings : ListingSettings) (word : Word) (reference : String) : String :=
  "\t" ++ (disassemble settings word).text ++ reference ++ "\t\t" ++ (disassemble settings word).noteLine

/-- What is printed for the target of the word with an index. -/
def reference (destinations : List Int) (index : Nat) (word : Word) : String :=
  match (target? index word).bind (labelAt? destinations) with
  | some number => ".label" ++ toString number
  | none => ""

/-- The rows of the word with an index, with these comments. -/
def blockRows (settings : ListingSettings) (destinations : List Int) (comments : List Comment) (index : Nat)
    (word : Word) : List String :=
  (labelAt? destinations (offsetOf index)).toList.map definitionRow ++ comments.map commentRow ++
    [instructionRow settings word (reference destinations index word)]

/-- All the rows. -/
def rows (settings : ListingSettings) (words : List Word) (comments : List Comment) : List String :=
  (lines settings words comments).map Line.text

variable {settings : ListingSettings} {words : List Word} {comments : List Comment} {destinations : List Int}
  {notes : Nat → List Comment} {index number : Nat} {word : Word}

theorem text_eq_join :
    text settings words comments = String.join ((rows settings words comments).map (· ++ "\n")) := by
  rw [rows, List.map_map]
  rfl

theorem map_text_block :
    (block settings destinations comments index word).map Line.text =
      blockRows settings destinations comments index word := by
  have label : (labelLines destinations (offsetOf index)).map Line.text =
      (labelAt? destinations (offsetOf index)).toList.map definitionRow := by
    unfold labelLines
    cases labelAt? destinations (offsetOf index) <;> rfl
  have instruction : (Line.instruction (disassemble settings word)
      ((target? index word).bind (labelAt? destinations))).text =
        instructionRow settings word (reference destinations index word) := by
    unfold reference
    cases (target? index word).bind (labelAt? destinations) <;> rfl
  rw [block, List.map_append, List.map_append, label, List.map_map, List.map_singleton, instruction]
  rfl

theorem map_text_blocks :
    (blocks settings destinations notes index words).map Line.text =
      (words.zipIdx index).flatMap fun (word, place) => blockRows settings destinations (notes place) place word := by
  simp only [blocks, List.map_flatMap, map_text_block]

/-! ### What a row is -/

@[simp]
theorem definitionRow_startsWith_tab (number : Nat) : (definitionRow number).startsWith "\t" = false := by
  simp [definitionRow]

@[simp]
theorem commentRow_startsWith_tab (comment : Comment) : (commentRow comment).startsWith "\t" = false := by
  simp [commentRow]

@[simp]
theorem definitionRow_startsWith_semicolon (number : Nat) : (definitionRow number).startsWith "  ;" = false := by
  simp [definitionRow]

@[simp]
theorem commentRow_startsWith_semicolon (comment : Comment) : (commentRow comment).startsWith "  ;" = true := by
  simp [commentRow]

@[simp]
theorem instructionRow_startsWith_semicolon (reference : String) :
    (instructionRow settings word reference).startsWith "  ;" = false := by
  simp [instructionRow]

/-- Only the comments of a word start like comments. -/
theorem filter_blockRows :
    (blockRows settings destinations comments index word).filter (·.startsWith "  ;") = comments.map commentRow := by
  simp [blockRows, List.filter_map, Function.comp_def]

namespace Line

variable {line : Line}

theorem text_label (number : Nat) : (label number).text = definitionRow number := rfl

theorem startsWith_tab (line : Line) : line.text.startsWith "\t" = line.isInstruction := by
  cases line with
  | label number => exact definitionRow_startsWith_tab number
  | comment text => exact commentRow_startsWith_tab ⟨0, text⟩
  | instruction disassembly target => simp [Line.text, isInstruction]

theorem exists_label_of_startsWith (definition : line.text.startsWith "." = true) :
    ∃ number, line = .label number := by
  cases line with
  | label number => exact ⟨number, rfl⟩
  | comment text => simp [Line.text] at definition
  | instruction disassembly target => simp [Line.text] at definition

theorem text_eq_definitionRow_iff : line.text = definitionRow number ↔ line = .label number := by
  constructor
  · intro same
    obtain ⟨other, rfl⟩ : ∃ number, line = .label number := by
      refine exists_label_of_startsWith ?_
      simp [same, definitionRow]
    have chars := congrArg String.toList same
    have digits : Nat.toDigits 10 other = Nat.toDigits 10 number := by
      simpa [text_label, definitionRow] using chars
    rw [Numeral.toDigits_inj .decimal digits]
  · rintro rfl
    rfl

end Line

theorem countP_startsWith_tab (printed : List Line) :
    (printed.map Line.text).countP (·.startsWith "\t") = printed.countP Line.isInstruction := by
  rw [List.countP_map]
  exact List.countP_congr fun line _ => by rw [Function.comp_apply, line.startsWith_tab]

theorem count_definitionRow (printed : List Line) :
    (printed.map Line.text).count (definitionRow number) = printed.count (.label number) := by
  rw [List.count, List.countP_map]
  refine List.countP_congr fun line _ => ?_
  rw [Function.comp_apply, beq_iff_eq, beq_iff_eq, Line.text_eq_definitionRow_iff]

/-- The rows of a word stand below as many instructions as there are words before it. -/
theorem exists_rows_eq_append (settings : ListingSettings) (comments : List Comment) (placed : words[index]? = some word) :
    ∃ before after,
      rows settings words comments =
        before ++ blockRows settings (targets words) (attached comments index) index word ++ after ∧
      before.countP (·.startsWith "\t") = index := by
  obtain ⟨before, after, cut, counted⟩ := exists_blocks_eq_append settings (targets words) (attached comments) placed
  refine ⟨before.map Line.text, after.map Line.text, ?_, ?_⟩
  · rw [rows, lines_eq_blocks, cut, List.map_append, List.map_append, map_text_block]
  · rw [countP_startsWith_tab, counted]

/-! ### Rows on one line -/

theorem unbroken_definitionRow (number : Nat) : Unbroken (definitionRow number) := by
  simp [Unbroken, definitionRow]

theorem unbroken_reference : Unbroken (reference destinations index word) := by
  unfold reference
  split <;> simp [Unbroken]

theorem unbroken_instructionRow {reference : String} (unbroken : Unbroken reference) :
    Unbroken (instructionRow settings word reference) := by
  simp +decide [instructionRow, unbroken]

/-- A row of a block is on one line, or it is one of the comments of the block. -/
theorem unbroken_of_mem_blockRows {row : String} (member : row ∈ blockRows settings destinations comments index word) :
    Unbroken row ∨ ∃ comment ∈ comments, row = commentRow comment := by
  simp only [blockRows, List.mem_append, List.mem_map, List.mem_singleton] at member
  rcases member with (⟨number, -, rfl⟩ | ⟨comment, member, rfl⟩) | rfl
  · exact .inl (unbroken_definitionRow number)
  · exact .inr ⟨comment, member, rfl⟩
  · exact .inl (unbroken_instructionRow unbroken_reference)

/-- A row of the listing is on one line, or it is one of the comments. -/
theorem unbroken_of_mem_rows {row : String} (member : row ∈ rows settings words comments) :
    Unbroken row ∨ ∃ comment ∈ comments, row = commentRow comment := by
  rw [rows, lines_eq_blocks, map_text_blocks, List.mem_flatMap] at member
  obtain ⟨⟨word, place⟩, -, member⟩ := member
  rcases unbroken_of_mem_blockRows member with unbroken | ⟨comment, above, written⟩
  · exact .inl unbroken
  · exact .inr ⟨comment, (mem_of_mem_attached above).1, written⟩

end Listing

end Arm32
