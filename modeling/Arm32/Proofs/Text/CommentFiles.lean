import Arm32.Proofs.Listing.Comments
import Arm32.Proofs.Text.Numerals

/-! Comment files as they are written. A file is read if each of its lines is blank or a comment, and then its comments
are all there, sorted by their offsets. Otherwise the first line that is neither is reported. -/

namespace Arm32.CommentFile

/-- The lines of a text. A line feed ends a line, together with a carriage return in front of it, and what is left at
the end is a line of its own. -/
inductive IsLines : List Char → List (List Char) → Prop where
  | nothing : IsLines [] []
  | last {line : List Char} (nonempty : line ≠ []) (unbroken : '\n' ∉ line) : IsLines line [line]
  | lineFeed {line rest : List Char} {others : List (List Char)} (unbroken : '\n' ∉ line)
    (bare : line.getLast? ≠ some '\r') (later : IsLines rest others) : IsLines (line ++ '\n' :: rest) (line :: others)
  | carriageReturn {line rest : List Char} {others : List (List Char)} (unbroken : '\n' ∉ line)
    (later : IsLines rest others) : IsLines (line ++ '\r' :: '\n' :: rest) (line :: others)

variable {text line rest : List Char} {others split : List (List Char)} {char : Char} {entry : Comment}
  {entries comments : List Comment} {number : Nat} {error : Error} {flaw : Flaw}

/-! ### Lines -/

theorem lines_cons (plain : char ≠ '\n') (bare : char = '\r' → rest.head? ≠ some '\n') :
    lines (char :: rest) =
      match lines rest with
      | [] => [[char]]
      | line :: others => (char :: line) :: others := by
  refine lines.eq_4 char rest plain ?_
  rintro after rfl rfl
  exact bare rfl rfl

/-- A line goes on where the text behind it does, up to the first ending. -/
theorem lines_append {front first : List Char} (unbroken : '\n' ∉ front)
    (bare : front.getLast? = some '\r' → rest.head? ≠ some '\n') (found : lines rest = first :: others) :
    lines (front ++ rest) = (front ++ first) :: others := by
  induction front with
  | nil => exact found
  | cons char front ih =>
      simp only [List.mem_cons, not_or] at unbroken
      have later : lines (front ++ rest) = (front ++ first) :: others := by
        refine ih unbroken.2 fun last => ?_
        cases front with
        | nil => cases last
        | cons next front => exact bare (by simpa using last)
      have next : char = '\r' → (front ++ rest).head? ≠ some '\n' := by
        rintro rfl
        cases front with
        | nil => exact bare rfl
        | cons next front =>
            simp only [List.mem_cons, not_or] at unbroken
            simpa using Ne.symm unbroken.2.1
      rw [List.cons_append, lines_cons (Ne.symm unbroken.1) next, later]
      rfl

theorem lines_of_isLines (isLines : IsLines text split) : lines text = split := by
  induction isLines with
  | nothing => rfl
  | @last line nonempty unbroken =>
      obtain ⟨front, char, rfl⟩ := (List.eq_nil_or_concat' line).resolve_left nonempty
      simp only [List.mem_append, List.mem_singleton, not_or] at unbroken
      have single : lines [char] = [[char]] := lines_cons (Ne.symm unbroken.2) nofun
      exact lines_append unbroken.1 (fun _ => by simpa using Ne.symm unbroken.2) single
  | @lineFeed line rest others unbroken bare later ih =>
      have found : lines (line ++ '\n' :: rest) = (line ++ []) :: lines rest :=
        lines_append unbroken (fun last => absurd last bare) rfl
      rw [found, ih, List.append_nil]
  | @carriageReturn line rest others unbroken later ih =>
      have found : lines (line ++ '\r' :: '\n' :: rest) = (line ++ []) :: lines rest :=
        lines_append unbroken (fun _ => by simp) rfl
      rw [found, ih, List.append_nil]

/-- A character in front of a text is put on its first line. -/
theorem IsLines.cons (plain : char ≠ '\n') (bare : char = '\r' → rest.head? ≠ some '\n')
    (isLines : IsLines rest (line :: others)) : IsLines (char :: rest) ((char :: line) :: others) := by
  have unbroken {line : List Char} (unbroken : '\n' ∉ line) : '\n' ∉ char :: line := by
    simpa using ⟨Ne.symm plain, unbroken⟩
  cases isLines with
  | last nonempty inside => exact .last (List.cons_ne_nil _ _) (unbroken inside)
  | lineFeed inside ends later =>
      refine .lineFeed (unbroken inside) ?_ later
      cases line with
      | nil =>
          intro same
          exact bare (by simpa using same) rfl
      | cons next line => simpa using ends
  | carriageReturn inside later => exact .carriageReturn (unbroken inside) later

theorem isLines_lines (text : List Char) : IsLines text (lines text) := by
  fun_induction lines text with
  | case1 => exact .nothing
  | case2 rest ih => exact @IsLines.lineFeed [] rest _ List.not_mem_nil nofun ih
  | case3 rest ih => exact @IsLines.carriageReturn [] rest _ List.not_mem_nil ih
  | case4 char rest plain bare none ih =>
      rw [none] at ih
      cases ih
      exact .last (List.cons_ne_nil _ _) (by simpa using Ne.symm plain)
  | case5 char rest plain bare line others found ih =>
      rw [found] at ih
      refine ih.cons plain ?_
      rintro rfl first
      obtain ⟨after, rfl⟩ := List.head?_eq_some_iff.mp first
      exact bare after rfl rfl

/-! ### Comments -/

def IsBlankLine (line : List Char) : Prop := ∀ c ∈ line, Blank.isBlank c = true

/-- A number up to the first semicolon, and the text behind it. -/
def IsEntry (line : List Char) (entry : Comment) : Prop :=
  ∃ number text, line = number ++ ';' :: text ∧ ';' ∉ number ∧ Numeral.readWord number = .ok entry.offset ∧
    entry.text = String.ofList text

/-- Some semicolon has a number in front of it. -/
def IsAccepted (line : List Char) : Prop :=
  ∃ number text offset, line = number ++ ';' :: text ∧ Numeral.readWord number = .ok offset

/-- What keeps a line from being a comment. -/
def HasFlaw (line : List Char) : Flaw → Prop
  | .noSeparator => ';' ∉ line
  | .offset error => ∃ number text, line = number ++ ';' :: text ∧ ';' ∉ number ∧ Numeral.readWord number = .error error

theorem comment_of_not_mem (unmarked : ';' ∉ line) : comment line = .error .noSeparator := by
  have none : line.dropWhile (· != ';') = [] := by
    rw [List.dropWhile_eq_nil_iff]
    exact bne_of_not_mem unmarked
  rw [comment, none]

theorem comment_append {front back : List Char} (plain : ';' ∉ front) :
    comment (front ++ ';' :: back) =
      match Numeral.readWord front with
      | .ok offset => .ok { offset, text := String.ofList back }
      | .error error => .error (.offset error) := by
  cases found : Numeral.readWord front with
  | ok offset => simp only [comment, dropWhile_append_mark plain, takeWhile_append_mark plain, found]
  | error error => simp only [comment, dropWhile_append_mark plain, takeWhile_append_mark plain, found]

theorem comment_eq_ok_iff : comment line = .ok entry ↔ IsEntry line entry := by
  constructor
  · intro read
    by_cases marked : ';' ∈ line
    · obtain ⟨front, back, rfl, plain⟩ := List.eq_append_cons_of_mem marked
      rw [comment_append plain] at read
      cases found : Numeral.readWord front with
      | error error => simp [found] at read
      | ok offset =>
          rw [found] at read
          cases read
          exact ⟨front, back, rfl, plain, found, rfl⟩
    · rw [comment_of_not_mem marked] at read
      cases read
  · rintro ⟨front, back, rfl, plain, found, same⟩
    rw [comment_append plain, found, ← same]

theorem comment_eq_error_iff : comment line = .error flaw ↔ HasFlaw line flaw := by
  constructor
  · intro read
    by_cases marked : ';' ∈ line
    · obtain ⟨front, back, rfl, plain⟩ := List.eq_append_cons_of_mem marked
      rw [comment_append plain] at read
      cases found : Numeral.readWord front with
      | ok offset => simp [found] at read
      | error error =>
          rw [found] at read
          cases read
          exact ⟨front, back, rfl, plain, found⟩
    · rw [comment_of_not_mem marked] at read
      cases read
      exact marked
  · intro flawed
    cases flaw with
    | noSeparator => exact comment_of_not_mem flawed
    | offset error =>
        obtain ⟨front, back, rfl, plain, found⟩ := flawed
        rw [comment_append plain, found]

theorem semicolon_not_mem {number : List Char} {offset : Word} (read : Numeral.readWord number = .ok offset) :
    ';' ∉ number := by
  intro member
  have digit (radix : Numeral.Radix) : radix.digit? ';' = none := by cases radix <;> rfl
  obtain blank | plus | small | capital | ⟨radix, found⟩ := Numeral.mem_of_readWord read member
  · revert blank
    decide
  · revert plus
    decide
  · revert small
    decide
  · revert capital
    decide
  · simp [digit] at found

/-- The first semicolon is the one behind the number. -/
theorem isAccepted_iff : IsAccepted line ↔ ∃ entry, comment line = .ok entry := by
  simp only [comment_eq_ok_iff]
  constructor
  · rintro ⟨front, back, offset, same, read⟩
    exact ⟨{ offset, text := String.ofList back }, front, back, same, semicolon_not_mem read, read, rfl⟩
  · rintro ⟨entry, front, back, same, -, read, -⟩
    exact ⟨front, back, entry.offset, same, read⟩

/-! ### Files -/

theorem all_isBlank_iff : line.all Blank.isBlank = true ↔ IsBlankLine line := List.all_eq_true

theorem commentsFrom_of_blank (blank : IsBlankLine line) :
    commentsFrom number (line :: others) = commentsFrom (number + 1) others := by
  rw [commentsFrom, if_pos (all_isBlank_iff.mpr blank)]

theorem commentsFrom_of_error (carries : ¬ IsBlankLine line) (read : comment line = .error flaw) :
    commentsFrom number (line :: others) = .error { line := number, flaw } := by
  rw [commentsFrom, if_neg (mt all_isBlank_iff.mp carries), read]

theorem commentsFrom_of_ok (carries : ¬ IsBlankLine line) (read : comment line = .ok entry) :
    commentsFrom number (line :: others) = (commentsFrom (number + 1) others).map (entry :: ·) := by
  rw [commentsFrom, if_neg (mt all_isBlank_iff.mp carries), read]

/-- The lines of a file that are to be comments. -/
def carrying (split : List (List Char)) : List (List Char) := split.filter fun line => !line.all Blank.isBlank

theorem carrying_of_blank (blank : IsBlankLine line) : carrying (line :: others) = carrying others := by
  simp [carrying, all_isBlank_iff.mpr blank]

theorem carrying_of_carries (carries : ¬ IsBlankLine line) : carrying (line :: others) = line :: carrying others := by
  simp [carrying, Bool.eq_false_iff.mpr (mt all_isBlank_iff.mp carries)]

theorem commentsFrom_eq_ok_iff :
    commentsFrom number split = .ok entries ↔ List.Forall₂ IsEntry (carrying split) entries := by
  induction split generalizing number entries with
  | nil => simp [commentsFrom, carrying, eq_comm]
  | cons line others ih =>
      by_cases blank : IsBlankLine line
      · rw [commentsFrom_of_blank blank, carrying_of_blank blank, ih]
      · rw [carrying_of_carries blank, List.forall₂_cons_left_iff]
        simp only [← comment_eq_ok_iff]
        cases read : comment line with
        | error flaw => simp [commentsFrom_of_error blank read]
        | ok entry =>
            have others_iff (rest : List Comment) : List.Forall₂ IsEntry (carrying others) rest ↔
                commentsFrom (number + 1) others = .ok rest := ih.symm
            rw [commentsFrom_of_ok blank read]
            simp only [others_iff]
            cases commentsFrom (number + 1) others <;> simp [Except.map, eq_comm]

/-- The error is about the first line that is neither blank nor a comment. The lines are counted from a number on. -/
def ReportsFirst (number : Nat) (split : List (List Char)) (error : Error) : Prop :=
  ∃ before line after, split = before ++ line :: after ∧ error.line = number + before.length ∧
    (∀ earlier ∈ before, IsBlankLine earlier ∨ IsAccepted earlier) ∧ ¬ IsBlankLine line ∧ HasFlaw line error.flaw

theorem reportsFirst_cons_of_sound (sound : IsBlankLine line ∨ IsAccepted line) :
    ReportsFirst number (line :: others) error ↔ ReportsFirst (number + 1) others error := by
  constructor
  · rintro ⟨before, first, after, same, place, earlier, carries, flawed⟩
    cases before with
    | nil =>
        cases same
        obtain ⟨entry, read⟩ := isAccepted_iff.mp (sound.resolve_left carries)
        rw [comment_eq_error_iff.mpr flawed] at read
        cases read
    | cons head before =>
        cases same
        refine ⟨before, first, after, rfl, ?_, fun line member => earlier line (.tail _ member), carries, flawed⟩
        rw [place, List.length_cons]
        omega
  · rintro ⟨before, first, after, rfl, place, earlier, carries, flawed⟩
    refine ⟨line :: before, first, after, rfl, ?_, List.forall_mem_cons.mpr ⟨sound, earlier⟩, carries, flawed⟩
    rw [place, List.length_cons]
    omega

theorem reportsFirst_cons_of_flawed (carries : ¬ IsBlankLine line) (read : comment line = .error flaw) :
    ReportsFirst number (line :: others) error ↔ error = { line := number, flaw } := by
  constructor
  · rintro ⟨before, first, after, same, place, earlier, -, flawed⟩
    cases before with
    | nil =>
        cases same
        have found := comment_eq_error_iff.mpr flawed
        rw [read] at found
        obtain ⟨line, flaw⟩ := error
        cases found
        simpa using place
    | cons head before =>
        cases same
        obtain ⟨entry, found⟩ := isAccepted_iff.mp ((earlier line (.head _)).resolve_left carries)
        rw [read] at found
        cases found
  · rintro rfl
    exact ⟨[], line, others, rfl, rfl, nofun, carries, comment_eq_error_iff.mp read⟩

theorem commentsFrom_eq_error_iff : commentsFrom number split = .error error ↔ ReportsFirst number split error := by
  induction split generalizing number with
  | nil => simp [commentsFrom, ReportsFirst]
  | cons line others ih =>
      by_cases blank : IsBlankLine line
      · rw [commentsFrom_of_blank blank, reportsFirst_cons_of_sound (.inl blank), ih]
      · cases read : comment line with
        | error flaw =>
            rw [commentsFrom_of_error blank read, reportsFirst_cons_of_flawed blank read, Except.error.injEq, eq_comm]
        | ok entry =>
            have accepted : IsAccepted line := isAccepted_iff.mpr ⟨entry, read⟩
            rw [commentsFrom_of_ok blank read, reportsFirst_cons_of_sound (.inr accepted), ← ih]
            cases commentsFrom (number + 1) others <;> simp [Except.map]

theorem exists_commentsFrom_iff :
    (∃ entries, commentsFrom number split = .ok entries) ↔ ∀ line ∈ split, IsBlankLine line ∨ IsAccepted line := by
  induction split generalizing number with
  | nil => simp [commentsFrom]
  | cons line others ih =>
      have others_iff : (∀ line ∈ others, IsBlankLine line ∨ IsAccepted line) ↔
          ∃ entries, commentsFrom (number + 1) others = .ok entries := ih.symm
      rw [List.forall_mem_cons, others_iff]
      by_cases blank : IsBlankLine line
      · simp [commentsFrom_of_blank blank, blank]
      · rw [isAccepted_iff]
        cases read : comment line with
        | error flaw => simp [commentsFrom_of_error blank read, blank]
        | ok entry =>
            rw [commentsFrom_of_ok blank read]
            cases commentsFrom (number + 1) others <;> simp [Except.map]

/-- The same comments by their offsets, and those at one offset in the order they had. -/
structure IsStableSort (entries sorted : List Comment) : Prop where
  ordered : sorted.Pairwise fun earlier later => earlier.offset ≤ later.offset
  perm : sorted.Perm entries
  stable : ∀ offset,
    (sorted.filter fun entry => entry.offset == offset) = entries.filter fun entry => entry.offset == offset

theorem isStableSort_sorted (entries : List Comment) : IsStableSort entries (sorted entries) where
  ordered := by
    have ordered : Listing.Sorted (sorted entries) := sorted_sorted
    refine ordered.imp ?_
    intro earlier later below
    simpa [Listing.commentOffset, BitVec.le_def] using below
  perm := List.mergeSort_perm entries _
  stable offset := by
    have same (entry : Comment) : (entry.offset == offset) = (entry.offset.toNat == offset.toNat) := by
      rw [Bool.eq_iff_iff, beq_iff_eq, beq_iff_eq, BitVec.toNat_inj]
    simp only [same]
    exact filter_sorted offset.toNat

/-! ### Comments that are written -/

/-- A text that stays on its line and is not taken for a part of its ending. -/
def IsOneLine (text : List Char) : Prop := '\n' ∉ text ∧ text.getLast? ≠ some '\r'

def IsEnding (ending : List Char) : Prop := ending = ['\n'] ∨ ending = ['\r', '\n']

/-- An offset in some format, and the text of the comment behind a semicolon. -/
def writeLine (format : Numeral.Format) (entry : Comment) : List Char :=
  format.write entry.offset ++ ';' :: entry.text.toList

theorem isLines_append {ending : List Char} (ends : IsEnding ending) (oneLine : IsOneLine line)
    (later : IsLines rest others) : IsLines (line ++ ending ++ rest) (line :: others) := by
  rcases ends with rfl | rfl
  · simpa using IsLines.lineFeed oneLine.1 oneLine.2 later
  · simpa using IsLines.carriageReturn oneLine.1 later

theorem isLines_flatMap {ending : List Char} (ends : IsEnding ending) (oneLine : ∀ line ∈ split, IsOneLine line) :
    IsLines (split.flatMap (· ++ ending)) split := by
  induction split with
  | nil => exact .nothing
  | cons line others ih =>
      obtain ⟨first, later⟩ := List.forall_mem_cons.mp oneLine
      exact isLines_append ends first (ih later)

/-- The last line may go without its ending. -/
theorem isLines_intercalate {ending : List Char} (ends : IsEnding ending) (oneLine : ∀ line ∈ split, IsOneLine line)
    (nonempty : ∀ line ∈ split, line ≠ []) : IsLines (ending.intercalate split) split := by
  induction split with
  | nil => exact .nothing
  | cons line others ih =>
      obtain ⟨first, later⟩ := List.forall_mem_cons.mp oneLine
      obtain ⟨some_text, others_text⟩ := List.forall_mem_cons.mp nonempty
      cases others with
      | nil =>
          rw [List.intercalate_singleton]
          exact .last some_text first.1
      | cons next others =>
          rw [List.intercalate_cons_cons]
          exact isLines_append ends first (ih later others_text)

theorem readWord_written (format : Numeral.Format) (offset : Word) :
    Numeral.readWord (format.write offset) = .ok offset := by
  simpa using Numeral.readWord_write format offset (List.forall_mem_nil _) (List.forall_mem_nil _)

theorem isEntry_writeLine (format : Numeral.Format) (entry : Comment) : IsEntry (writeLine format entry) entry := by
  have read := readWord_written format entry.offset
  exact ⟨_, _, rfl, semicolon_not_mem read, read, String.ofList_toList.symm⟩

theorem isOneLine_writeLine {format : Numeral.Format} (oneLine : IsOneLine entry.text.toList) :
    IsOneLine (writeLine format entry) := by
  have unbroken : '\n' ∉ format.write entry.offset := by
    intro member
    have blank := Numeral.Format.isBlank_of_mem_write member
    revert blank
    decide
  constructor
  · simp [writeLine, unbroken, oneLine.1]
  · have last := oneLine.2
    rw [writeLine, List.getLast?_append, List.getLast?_cons]
    cases found : entry.text.toList.getLast? with
    | none => simp
    | some char => simpa [found] using last

theorem commentsFrom_written (written : List (Numeral.Format × Comment)) :
    commentsFrom number (written.map fun item => writeLine item.1 item.2) = .ok (written.map Prod.snd) := by
  induction written generalizing number with
  | nil => rfl
  | cons item others ih =>
      have read := comment_eq_ok_iff.mpr (isEntry_writeLine item.1 item.2)
      have carries : ¬ IsBlankLine (writeLine item.1 item.2) := by
        intro blank
        have semicolon : ';' ∈ writeLine item.1 item.2 := List.mem_append_right _ (.head _)
        exact absurd (blank ';' semicolon) (by decide)
      rw [List.map_cons, commentsFrom_of_ok carries read, ih]
      rfl

theorem parse_of_isLines {text : String} {written : List (Numeral.Format × Comment)}
    (isLines : IsLines text.toList (written.map fun item => writeLine item.1 item.2)) :
    parse text = .ok (sorted (written.map Prod.snd)) := by
  rw [parse, lines_of_isLines isLines, commentsFrom_written]
  rfl

/-- A file is read if each line is blank or a comment, and the comments are sorted and keep their order at each offset.
Otherwise the first line at fault is reported. Comments that are written one on a line are read back, sorted. -/
theorem parse_reads (text : String) :
    IsLines text.toList (lines text.toList) ∧
      ((∃ comments, parse text = .ok comments) ↔ ∀ line ∈ lines text.toList, IsBlankLine line ∨ IsAccepted line) ∧
      (∀ error, parse text = .error error ↔ ReportsFirst 1 (lines text.toList) error) ∧
      (∀ comments, parse text = .ok comments →
        ∃ entries, List.Forall₂ IsEntry (carrying (lines text.toList)) entries ∧ IsStableSort entries comments) ∧
      ∀ (ending : List Char) (written : List (Numeral.Format × Comment)), IsEnding ending →
        (∀ item ∈ written, IsOneLine item.2.text.toList) →
        (text.toList = (written.map fun item => writeLine item.1 item.2).flatMap (· ++ ending) ∨
          text.toList = ending.intercalate (written.map fun item => writeLine item.1 item.2)) →
        ∃ comments, parse text = .ok comments ∧ IsStableSort (written.map Prod.snd) comments := by
  refine ⟨isLines_lines _, ?_, ?_, ?_, ?_⟩
  · rw [← exists_commentsFrom_iff, parse]
    cases commentsFrom 1 (lines text.toList) <;> simp [Except.map]
  · intro error
    rw [← commentsFrom_eq_error_iff, parse]
    cases commentsFrom 1 (lines text.toList) <;> simp [Except.map]
  · intro comments parsed
    cases read : commentsFrom 1 (lines text.toList) with
    | error error => simp [parse, read, Except.map] at parsed
    | ok entries =>
        simp only [parse, read, Except.map, Except.ok.injEq] at parsed
        subst parsed
        exact ⟨entries, commentsFrom_eq_ok_iff.mp read, isStableSort_sorted entries⟩
  · intro ending written ends oneLine spelled
    have each : ∀ line ∈ written.map fun item => writeLine item.1 item.2, IsOneLine line ∧ line ≠ [] := by
      intro line member
      obtain ⟨item, listed, rfl⟩ := List.mem_map.mp member
      exact ⟨isOneLine_writeLine (oneLine item listed), by simp [writeLine]⟩
    refine ⟨_, parse_of_isLines ?_, isStableSort_sorted _⟩
    rcases spelled with spelled | spelled
    · rw [spelled]
      exact isLines_flatMap ends fun line member => (each line member).1
    · rw [spelled]
      exact isLines_intercalate ends (fun line member => (each line member).1) fun line member => (each line member).2

/-- Two comments at one offset, in different formats, behind one further on. The last line has no ending. -/
def reordered : List (Numeral.Format × Comment) :=
  [(⟨.decimal, 0, false⟩, ⟨16, "later"⟩), (⟨.hexadecimal, 4, true⟩, ⟨10, "first; second"⟩),
    (⟨.decimal, 3, false⟩, ⟨10, ""⟩)]

theorem parse_reads_reordered :
    "16;later\r\n0x000A;first; second\r\n010;".toList =
        ['\r', '\n'].intercalate (reordered.map fun item => writeLine item.1 item.2) ∧
      ∃ comments, parse "16;later\r\n0x000A;first; second\r\n010;" = .ok comments ∧
        IsStableSort [⟨16, "later"⟩, ⟨10, "first; second"⟩, ⟨10, ""⟩] comments := by
  have oneLine : ∀ item ∈ reordered, IsOneLine item.2.text.toList := by
    simp [reordered, IsOneLine]
  have spelled : "16;later\r\n0x000A;first; second\r\n010;".toList =
      ['\r', '\n'].intercalate (reordered.map fun item => writeLine item.1 item.2) := by decide
  exact ⟨spelled, (parse_reads _).2.2.2.2 _ reordered (.inr rfl) oneLine (.inr spelled)⟩

end Arm32.CommentFile
