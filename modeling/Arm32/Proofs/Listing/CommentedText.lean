import Arm32.Proofs.Listing.Comments
import Arm32.Proofs.Text.CommentFiles

/-! The text of a listing with a comment file. Whatever order the file is in, each instruction is printed below the
entries at its offset, and an entry at any other offset is not printed and keeps no other from being printed. -/

namespace Arm32.CommentFile

variable {line : List Char} {split : List (List Char)} {entry : Comment} {entries comments : List Comment}

theorem IsLines.unbroken {text : List Char} (isLines : IsLines text split) : ∀ line ∈ split, '\n' ∉ line := by
  induction isLines with
  | nothing => exact List.forall_mem_nil _
  | last nonempty unbroken => simpa using unbroken
  | lineFeed unbroken bare later ih => exact List.forall_mem_cons.mpr ⟨unbroken, ih⟩
  | carriageReturn unbroken later ih => exact List.forall_mem_cons.mpr ⟨unbroken, ih⟩

theorem IsEntry.unbroken (isEntry : IsEntry line entry) (unbroken : '\n' ∉ line) : Unbroken entry.text := by
  obtain ⟨number, text, rfl, -, -, written⟩ := isEntry
  rw [Unbroken, written, String.toList_ofList]
  exact fun member => unbroken (List.mem_append_right _ (.tail _ member))

theorem unbroken_of_forall₂ (entered : List.Forall₂ IsEntry split entries) (unbroken : ∀ line ∈ split, '\n' ∉ line) :
    ∀ entry ∈ entries, Unbroken entry.text := by
  induction entered with
  | nil => exact List.forall_mem_nil _
  | cons isEntry later ih =>
      obtain ⟨first, others⟩ := List.forall_mem_cons.mp unbroken
      exact List.forall_mem_cons.mpr ⟨isEntry.unbroken first, ih others⟩

theorem attached_sorted (entries : List Comment) (index : Nat) :
    Listing.attached (sorted entries) index = entries.filter fun entry => entry.offset.toNat == 4 * index := by
  rw [Listing.attached_eq_filter sorted_sorted, filter_sorted]

/-- Each word of the program has the entries of the file at its offset right above its instruction, in the order of the
file, and the comments of the whole text are the entries at offsets of words, none lost and none twice. -/
theorem text_of_parse {file : String} (parsed : parse file = .ok comments) (settings : ListingSettings)
    (words : List Word) :
    ∃ split entries, IsLines file.toList split ∧ List.Forall₂ IsEntry (carrying split) entries ∧
      ∃ rows, HasLines (Listing.text settings words comments) rows ∧
        rows = (words.zipIdx.flatMap fun (word, index) =>
          Listing.blockRows settings (Listing.targets words)
            (entries.filter fun entry => entry.offset.toNat == 4 * index) index word) ∧
        (rows.filter (·.startsWith "  ;")).Perm
          ((entries.filter fun entry => entry.offset.toNat % 4 == 0 && entry.offset.toNat < 4 * words.length).map
            Listing.commentRow) := by
  cases read : commentsFrom 1 (lines file.toList) with
  | error error => simp [parse, read, Except.map] at parsed
  | ok entries =>
      simp only [parse, read, Except.map, Except.ok.injEq] at parsed
      subst parsed
      have split := isLines_lines file.toList
      have entered := commentsFrom_eq_ok_iff.mp read
      have printed : Listing.rows settings words (sorted entries) = words.zipIdx.flatMap fun (word, index) =>
          Listing.blockRows settings (Listing.targets words)
            (entries.filter fun entry => entry.offset.toNat == 4 * index) index word := by
        rw [Listing.rows, Listing.lines_eq_blocks, Listing.map_text_blocks]
        simp only [attached_sorted]
      refine ⟨_, entries, split, entered, _, ⟨Listing.text_eq_join, fun row member => ?unbroken⟩, printed, ?perm⟩
      case unbroken =>
        rcases Listing.unbroken_of_mem_rows member with unbroken | ⟨comment, listed, rfl⟩
        · exact unbroken
        · have each := unbroken_of_forall₂ entered fun line carried => split.unbroken line (List.mem_filter.mp carried).1
          have unbroken := each comment ((List.mergeSort_perm entries _).mem_iff.mp listed)
          simp +decide [Listing.commentRow, unbroken]
      case perm =>
        rw [printed]
        simpa using Listing.filter_flatMap_blockRows_perm settings words entries 0 (Listing.targets words)

/-- Entries out of order, two of them at one offset, one between the words of a short program and one past them. -/
def scattered : String := "4;b\n2;between\n0;a\n\n4;c\n64;past"

theorem text_of_parse_scattered :
    parse scattered = .ok [⟨0, "a"⟩, ⟨2, "between"⟩, ⟨4, "b"⟩, ⟨4, "c"⟩, ⟨64, "past"⟩] ∧
      HasLines
        (Listing.text ⟨.arm7, .little, false⟩ [0xE1A00000, 0xE1A00000]
          [⟨0, "a"⟩, ⟨2, "between"⟩, ⟨4, "b"⟩, ⟨4, "c"⟩, ⟨64, "past"⟩])
        ["  ;a", "\tmov     r0, r0\t\t", "  ;b", "  ;c", "\tmov     r0, r0\t\t"] := by
  have read : commentsFrom 1 (lines scattered.toList) =
      .ok [⟨4, "b"⟩, ⟨2, "between"⟩, ⟨0, "a"⟩, ⟨4, "c"⟩, ⟨64, "past"⟩] := by rfl
  have parsed : parse scattered =
      .ok [⟨0, "a"⟩, ⟨2, "between"⟩, ⟨4, "b"⟩, ⟨4, "c"⟩, ⟨64, "past"⟩] := by
    simp [parse, read, Except.map, sorted, List.mergeSort, List.MergeSort.Internal.splitInTwo]
  obtain ⟨split, entries, isLines, entered, rows, printed, rfl, -⟩ :=
    text_of_parse parsed ⟨.arm7, .little, false⟩ [0xE1A00000, 0xE1A00000]
  -- The file has one reading, so the entries are those that were read above.
  obtain rfl : entries = [⟨4, "b"⟩, ⟨2, "between"⟩, ⟨0, "a"⟩, ⟨4, "c"⟩, ⟨64, "past"⟩] := by
    have again : commentsFrom 1 split = .ok entries := commentsFrom_eq_ok_iff.mpr entered
    rw [← lines_of_isLines isLines, read] at again
    exact (Except.ok.inj again).symm
  exact ⟨parsed, printed⟩

end Arm32.CommentFile
