import Mathlib.Data.List.Forall2
import Mathlib.Data.List.TakeWhile
import Mathlib.Data.Nat.Digits.Defs
import Arm32.Proofs.Text.Reading

/-! Numbers as they are written. A word is read from exactly those texts that write one, in decimal or behind a mark in
hexadecimal, with blanks around it. What a program prints in either radix is among them. -/

namespace Arm32

namespace Blank

variable {text inner front back : List Char}

/-- What is left of a text without the blanks at its ends. -/
structure Trimmed (text inner : List Char) : Prop where
  around : ∃ front back, text = front ++ inner ++ back ∧ (∀ c ∈ front, isBlank c = true) ∧ ∀ c ∈ back, isBlank c = true
  first : ∀ c ∈ inner.head?, isBlank c = false
  last : ∀ c ∈ inner.getLast?, isBlank c = false

theorem dropWhile_of_head? (first : ∀ c ∈ inner.head?, isBlank c = false) : inner.dropWhile isBlank = inner := by
  cases inner with
  | nil => rfl
  | cons c rest => simp [first c rfl]

theorem trim_of_trimmed (trimmed : Trimmed text inner) : trim text = inner := by
  obtain ⟨⟨front, back, rfl, blankFront, blankBack⟩, first, last⟩ := trimmed
  have turned : ∀ c ∈ back.reverse, isBlank c = true := by simpa using blankBack
  rw [trim, List.append_assoc, List.dropWhile_append_of_pos blankFront]
  cases inner with
  | nil =>
      have none : back.dropWhile isBlank = [] := List.dropWhile_eq_nil_iff.mpr blankBack
      simp [none]
  | cons c rest =>
      rw [List.cons_append, List.dropWhile_cons_of_neg (by simp [first c rfl]), ← List.cons_append, List.reverse_append,
        List.dropWhile_append_of_pos turned, dropWhile_of_head? (by rwa [List.head?_reverse]), List.reverse_reverse]

theorem trimmed_trim (text : List Char) : Trimmed text (trim text) := by
  let inner := text.dropWhile isBlank
  have front : text = text.takeWhile isBlank ++ inner := List.takeWhile_append_dropWhile.symm
  have back : inner = trim text ++ (inner.reverse.takeWhile isBlank).reverse := by
    rw [trim, ← List.reverse_append, List.takeWhile_append_dropWhile, List.reverse_reverse]
  have stops (items : List Char) : ∀ c ∈ (items.dropWhile isBlank).head?, isBlank c = false := by
    intro c found
    have stop := List.head?_dropWhile_not isBlank items
    rwa [Option.mem_def.mp found] at stop
  refine ⟨⟨text.takeWhile isBlank, (inner.reverse.takeWhile isBlank).reverse, ?_, ?_, ?_⟩, ?_, ?_⟩
  · rw [List.append_assoc, ← back]
    exact front
  · exact fun c member => List.mem_takeWhile_imp member
  · exact fun c member => List.mem_takeWhile_imp (List.mem_reverse.mp member)
  · intro c found
    -- What is left starts where the text without its front does.
    have first : inner.head? = some c := by
      rw [back, List.head?_append, Option.mem_def.mp found]
      rfl
    exact stops text c first
  · intro c found
    rw [trim, List.getLast?_reverse] at found
    exact stops _ c found

theorem trimmed_iff : Trimmed text inner ↔ trim text = inner := by
  refine ⟨trim_of_trimmed, ?_⟩
  rintro rfl
  exact trimmed_trim text

end Blank

namespace Numeral

variable {radix : Radix} {limit value start : Nat} {char : Char} {text digits : List Char}

namespace Radix

/-- What a character counts as a digit. Letters are taken in either case. -/
def IsDigit (radix : Radix) (char : Char) (value : Nat) : Prop := value < radix.base ∧ char.toLower = value.digitChar

/-- One or more digits of a number, the first of which counts most. -/
structure Spells (radix : Radix) (digits : List Char) (value : Nat) : Prop where
  nonempty : digits ≠ []
  places : ∃ places, List.Forall₂ radix.IsDigit digits places ∧ Nat.ofDigits radix.base places.reverse = value

/-- The digits of a number, with a plus in front of them or without. -/
def Writes (radix : Radix) (text : List Char) (value : Nat) : Prop :=
  ∃ digits, radix.Spells digits value ∧ (text = digits ∨ text = '+' :: digits)

end Radix

/-- The mark of a hexadecimal number, and what comes behind it. -/
def Marks (text rest : List Char) : Prop := text = '0' :: 'x' :: rest ∨ text = '0' :: 'X' :: rest

/-- A number in hexadecimal if there is a mark, and in decimal if there is none. -/
def Writes (text : List Char) (value : Nat) : Prop :=
  (∃ rest, Marks text rest ∧ Radix.hexadecimal.Writes rest value) ∨
    (¬ ∃ rest, Marks text rest) ∧ Radix.decimal.Writes text value

/-! ### Digits -/

theorem exists_ascii (below : char.toNat < 128) : ∃ code : Fin 128, char = Char.ofNat code :=
  ⟨⟨char.toNat, below⟩, (Char.ofNat_toNat char).symm⟩

theorem toNat_le_of_digit? (found : radix.digit? char = some value) : char.toNat < 128 := by
  by_contra above
  have numeral : ¬ char ≤ '9' := fun within => above (Nat.lt_of_le_of_lt within (by decide))
  have small : ¬ char ≤ 'f' := fun within => above (Nat.lt_of_le_of_lt within (by decide))
  have capital : ¬ char ≤ 'F' := fun within => above (Nat.lt_of_le_of_lt within (by decide))
  simp [Radix.digit?, numeral, small, capital] at found

theorem digit?_toLower (radix : Radix) (char : Char) : radix.digit? char.toLower = radix.digit? char := by
  by_cases below : char.toNat < 128
  · obtain ⟨code, rfl⟩ := exists_ascii below
    cases radix <;> decide +revert
  · have same : char.toLower = char := by
      refine dif_neg fun upper => below ?_
      exact Nat.lt_of_le_of_lt upper.2 (by decide)
    rw [same]

theorem digit?_toUpper (radix : Radix) (char : Char) : radix.digit? char.toUpper = radix.digit? char := by
  by_cases below : char.toNat < 128
  · obtain ⟨code, rfl⟩ := exists_ascii below
    cases radix <;> decide +revert
  · have same : char.toUpper = char := by
      refine dif_neg fun lower => below ?_
      exact Nat.lt_of_le_of_lt lower.2 (by decide)
    rw [same]

theorem digit?_eq_some_iff : radix.digit? char = some value ↔ radix.IsDigit char value := by
  constructor
  · intro found
    obtain ⟨code, rfl⟩ := exists_ascii (toNat_le_of_digit? found)
    have known : ∀ code : Fin 128, ∀ value ∈ radix.digit? (Char.ofNat code),
        value < radix.base ∧ (Char.ofNat code).toLower = value.digitChar := by
      cases radix <;> decide
    exact known code value found
  · rintro ⟨below, same⟩
    rw [← digit?_toLower, same, digit?_digitChar below]

theorem isBlank_of_digit? (found : (radix.digit? char).isSome) : Blank.isBlank char = false := by
  obtain ⟨value, found⟩ := Option.isSome_iff_exists.mp found
  obtain ⟨code, rfl⟩ := exists_ascii (toNat_le_of_digit? found)
  have known : ∀ code : Fin 128, (radix.digit? (Char.ofNat code)).isSome = true →
      Blank.isBlank (Char.ofNat code) = false := by
    cases radix <;> decide
  exact known code (by rw [found]; rfl)

/-! ### Numbers that are read -/

theorem isDigits_cons_iff {digit : Nat} {rest : List Char} {places : List Nat}
    (found : radix.digit? char = some digit) :
    List.Forall₂ radix.IsDigit (char :: rest) places ↔
      ∃ others, places = digit :: others ∧ List.Forall₂ radix.IsDigit rest others := by
  constructor
  · intro spelled
    obtain ⟨other, others, first, later, rfl⟩ := List.forall₂_cons_left_iff.mp spelled
    rw [← digit?_eq_some_iff, found, Option.some.injEq] at first
    exact ⟨others, by rw [first], later⟩
  · rintro ⟨others, rfl, later⟩
    exact .cons (digit?_eq_some_iff.mp found) later

/-- Digits are read onto a number, which moves up by as many places. -/
theorem extend_eq_ok_iff (below : start < limit) :
    extend radix limit start digits = .ok value ↔
      (∃ places, List.Forall₂ radix.IsDigit digits places ∧
        Nat.ofDigits radix.base places.reverse + radix.base ^ places.length * start = value) ∧ value < limit := by
  induction digits generalizing start with
  | nil =>
      simp only [extend, Except.ok.injEq, List.forall₂_nil_left_iff, exists_eq_left, List.reverse_nil,
        Nat.ofDigits_nil, List.length_nil, pow_zero, one_mul, zero_add]
      constructor
      · rintro rfl
        exact ⟨rfl, below⟩
      · exact And.left
  | cons char rest ih =>
      cases found : radix.digit? char with
      | none =>
          simp only [extend, found, reduceCtorEq, false_iff]
          rintro ⟨⟨places, spelled, -⟩, -⟩
          obtain ⟨digit, others, first, -, -⟩ := List.forall₂_cons_left_iff.mp spelled
          rw [digit?_eq_some_iff.mpr first] at found
          cases found
      | some digit =>
          have moved (places : List Nat) :
              Nat.ofDigits radix.base (digit :: places).reverse + radix.base ^ (digit :: places).length * start =
                Nat.ofDigits radix.base places.reverse + radix.base ^ places.length * (radix.base * start + digit) := by
            rw [Nat.ofDigits_reverse_cons, List.length_cons, pow_succ]
            ring
          simp only [extend, found, isDigits_cons_iff found]
          by_cases fits : radix.base * start + digit < limit
          · rw [if_pos fits, ih fits]
            refine and_congr_left fun _ => ⟨?_, ?_⟩
            · rintro ⟨places, spelled, sum⟩
              exact ⟨digit :: places, ⟨places, rfl, spelled⟩, (moved places).trans sum⟩
            · rintro ⟨_, ⟨places, rfl, spelled⟩, sum⟩
              exact ⟨places, spelled, (moved places).symm.trans sum⟩
          · rw [if_neg fits]
            simp only [reduceCtorEq, false_iff]
            rintro ⟨⟨_, ⟨places, rfl, -⟩, sum⟩, within⟩
            rw [moved] at sum
            have grown : radix.base * start + digit ≤ radix.base ^ places.length * (radix.base * start + digit) :=
              Nat.le_mul_of_pos_left _ (Nat.pow_pos (by cases radix <;> decide))
            omega

theorem extend_eq_ok_iff_spells (positive : 0 < limit) (nonempty : digits ≠ []) :
    extend radix limit 0 digits = .ok value ↔ radix.Spells digits value ∧ value < limit := by
  rw [extend_eq_ok_iff positive]
  simp only [mul_zero, add_zero]
  exact and_congr_left fun _ => ⟨fun places => ⟨nonempty, places⟩, fun spelled => spelled.places⟩

theorem not_isDigit_plus : ¬ radix.IsDigit '+' value := by
  rw [← digit?_eq_some_iff]
  cases radix <;> simp [Radix.digit?]

theorem head_isDigit {rest : List Char} (spelled : radix.Spells (char :: rest) value) :
    ∃ digit, radix.IsDigit char digit := by
  obtain ⟨places, each, -⟩ := spelled.places
  obtain ⟨digit, others, first, -, -⟩ := List.forall₂_cons_left_iff.mp each
  exact ⟨digit, first⟩

/-- A plus that is read is a sign, since it is no digit. -/
theorem writes_plus_iff : radix.Writes ('+' :: digits) value ↔ radix.Spells digits value := by
  constructor
  · rintro ⟨spelled, spells, rfl | same⟩
    · obtain ⟨digit, first⟩ := head_isDigit spells
      exact absurd first not_isDigit_plus
    · cases same
      exact spells
  · exact fun spells => ⟨digits, spells, .inr rfl⟩

theorem writes_iff_of_ne (unsigned : char ≠ '+') {rest : List Char} :
    radix.Writes (char :: rest) value ↔ radix.Spells (char :: rest) value := by
  constructor
  · rintro ⟨spelled, spells, rfl | same⟩
    · exact spells
    · cases same
      exact absurd rfl unsigned
  · exact fun spells => ⟨_, spells, .inl rfl⟩

theorem read_eq_ok_iff (positive : 0 < limit) :
    read radix limit text = .ok value ↔ radix.Writes text value ∧ value < limit := by
  unfold read
  split
  next =>
    simp only [reduceCtorEq, false_iff, not_and]
    rintro ⟨digits, spells, rfl | impossible⟩
    · exact absurd rfl spells.nonempty
    · cases impossible
  next =>
    simp only [reduceCtorEq, false_iff, not_and]
    intro written
    exact absurd rfl (writes_plus_iff.mp written).nonempty
  next digits some_digit =>
    rw [writes_plus_iff]
    exact extend_eq_ok_iff_spells positive (fun none => some_digit (by rw [none]))
  next some_text _ unsigned =>
    cases text with
    | nil => exact absurd rfl some_text
    | cons char rest =>
        rw [writes_iff_of_ne (fun plus => unsigned rest (by rw [plus]))]
        exact extend_eq_ok_iff_spells positive (List.cons_ne_nil char rest)

/-! ### Words -/

theorem marked_of_marks {rest : List Char} (marks : Marks text rest) : marked text = (.hexadecimal, rest) := by
  rcases marks with rfl | rfl <;> rfl

theorem marked_of_not_marks (unmarked : ¬ ∃ rest, Marks text rest) : marked text = (.decimal, text) := by
  unfold marked
  split
  next rest => exact absurd ⟨rest, .inl rfl⟩ unmarked
  next rest => exact absurd ⟨rest, .inr rfl⟩ unmarked
  next => rfl

theorem writes_iff : Writes text value ↔ (marked text).1.Writes (marked text).2 value := by
  by_cases marks : ∃ rest, Marks text rest
  · obtain ⟨rest, marks⟩ := marks
    have only (other : List Char) : Marks text other ↔ other = rest := by
      refine ⟨fun others => ?_, ?_⟩
      · exact congrArg Prod.snd ((marked_of_marks others).symm.trans (marked_of_marks marks))
      · rintro rfl
        exact marks
    simp [Writes, only, marked_of_marks marks]
  · rw [Writes, marked_of_not_marks marks]
    have unmarked (rest : List Char) : ¬ Marks text rest := fun found => marks ⟨rest, found⟩
    simp [unmarked]

theorem readWord_eq_ok_iff {value : Word} :
    readWord text = .ok value ↔ ∃ written, Blank.Trimmed text written ∧ Writes written value.toNat := by
  simp only [Blank.trimmed_iff, exists_eq_left', writes_iff, readWord]
  generalize marked (Blank.trim text) = found
  obtain ⟨radix, digits⟩ := found
  have bound (number : Nat) : read radix Word.bound digits = .ok number ↔
      radix.Writes digits number ∧ number < Word.bound := read_eq_ok_iff (by decide)
  cases answer : read radix Word.bound digits with
  | error flaw =>
      simp only [reduceCtorEq, false_iff]
      intro written
      have found := (bound _).mpr ⟨written, value.isLt⟩
      rw [answer] at found
      cases found
  | ok number =>
      obtain ⟨written, below⟩ := (bound number).mp answer
      constructor
      · intro same
        cases same
        rwa [BitVec.toNat_ofNat, Nat.mod_eq_of_lt below]
      · intro written
        have same := answer.symm.trans ((bound _).mpr ⟨written, value.isLt⟩)
        show Except.ok (BitVec.ofNat 32 number) = .ok value
        rw [Except.ok.inj same, BitVec.ofNat_toNat, BitVec.setWidth_eq]

/-! ### Words that are printed -/

/-- How a word is printed: in which radix, with how many digits at least, and with its letters as capitals or not. -/
structure Format where
  radix : Radix
  width : Nat
  capitals : Bool
  deriving DecidableEq, Repr

namespace Format

def figures (format : Format) (value : Word) : List Char :=
  let fewest := Nat.toDigits format.radix.base value.toNat
  (List.replicate (format.width - fewest.length) '0' ++ fewest).map fun digit =>
    if format.capitals then digit.toUpper else digit

/-- Only hexadecimal figures have a mark. -/
def write (format : Format) (value : Word) : List Char :=
  match format.radix with
  | .decimal => format.figures value
  | .hexadecimal => '0' :: 'x' :: format.figures value

end Format

theorem extend_map {function : Char → Char} (kept : ∀ char, radix.digit? (function char) = radix.digit? char) :
    extend radix limit start (digits.map function) = extend radix limit start digits := by
  induction digits generalizing start with
  | nil => rfl
  | cons char rest ih => simp only [List.map_cons, extend, kept, ih]

theorem isSome_digit?_of_spells (spelled : radix.Spells digits value) (member : char ∈ digits) :
    (radix.digit? char).isSome := by
  have positive : 0 < value + 1 := Nat.succ_pos value
  have read := (extend_eq_ok_iff_spells positive spelled.nonempty).mpr ⟨spelled, Nat.lt_succ_self value⟩
  exact isSome_digit?_of_extend read member

theorem not_marks_of_spells {rest : List Char} (spelled : Radix.decimal.Spells text value) : ¬ Marks text rest := by
  rintro (rfl | rfl)
  · have digit := isSome_digit?_of_spells spelled (.tail _ (.head _))
    cases digit
  · have digit := isSome_digit?_of_spells spelled (.tail _ (.head _))
    cases digit

namespace Format

variable {format : Format}

theorem spells_figures (format : Format) (value : Word) : format.radix.Spells (format.figures value) value.toNat := by
  have nonempty : format.figures value ≠ [] := by simp [figures, Nat.toDigits_ne_nil]
  have kept (char : Char) :
      format.radix.digit? (if format.capitals then char.toUpper else char) = format.radix.digit? char := by
    split
    · exact digit?_toUpper format.radix char
    · rfl
  have limit : 0 < Word.bound := by decide
  refine ((extend_eq_ok_iff_spells limit nonempty).mp ?_).1
  rw [figures, extend_map kept, extend_append, extend_replicate_zero limit]
  exact extend_toDigits value.isLt

theorem writes_write (format : Format) (value : Word) : Writes (format.write value) value.toNat := by
  have spelled := format.spells_figures value
  unfold write
  split
  next radix =>
    rw [radix] at spelled
    exact .inr ⟨fun ⟨_, marks⟩ => not_marks_of_spells spelled marks, _, spelled, .inl rfl⟩
  next radix =>
    rw [radix] at spelled
    exact .inl ⟨_, .inl rfl, _, spelled, .inl rfl⟩

theorem isBlank_of_mem_write {value : Word} (member : char ∈ format.write value) : Blank.isBlank char = false := by
  have digit (member : char ∈ format.figures value) : Blank.isBlank char = false :=
    isBlank_of_digit? (isSome_digit?_of_spells (format.spells_figures value) member)
  unfold write at member
  split at member
  · exact digit member
  · cases member with
    | head => decide
    | tail _ member =>
        cases member with
        | head => decide
        | tail _ member => exact digit member

end Format

theorem readWord_write (format : Format) (value : Word) {front back : List Char}
    (blankFront : ∀ c ∈ front, Blank.isBlank c = true) (blankBack : ∀ c ∈ back, Blank.isBlank c = true) :
    readWord (front ++ format.write value ++ back) = .ok value := by
  refine readWord_eq_ok_iff.mpr ⟨format.write value, ⟨⟨front, back, rfl, blankFront, blankBack⟩, ?_, ?_⟩,
    format.writes_write value⟩
  · exact fun c found => Format.isBlank_of_mem_write (List.mem_of_head? found)
  · exact fun c found => Format.isBlank_of_mem_write (List.mem_of_getLast? found)

theorem mem_of_writes (written : Writes text value) (member : char ∈ text) :
    char = '+' ∨ char = 'x' ∨ char = 'X' ∨ ∃ radix : Radix, (radix.digit? char).isSome := by
  have signed {radix : Radix} {text : List Char} (written : radix.Writes text value) (member : char ∈ text) :
      char = '+' ∨ (radix.digit? char).isSome := by
    obtain ⟨digits, spelled, rfl | rfl⟩ := written
    · exact .inr (isSome_digit?_of_spells spelled member)
    · cases member with
      | head => exact .inl rfl
      | tail _ member => exact .inr (isSome_digit?_of_spells spelled member)
  rcases written with ⟨rest, marks, written⟩ | ⟨-, written⟩
  · have inside (member : char ∈ rest) := signed written member
    have zero : (Radix.hexadecimal.digit? '0').isSome := by decide
    rcases marks with rfl | rfl <;> simp only [List.mem_cons] at member <;> grind
  · exact (signed written member).elim .inl fun digit => .inr (.inr (.inr ⟨.decimal, digit⟩))

/-- What stands in a text that is read as a word. -/
theorem mem_of_readWord {value : Word} (read : readWord text = .ok value) (member : char ∈ text) :
    Blank.isBlank char = true ∨ char = '+' ∨ char = 'x' ∨ char = 'X' ∨ ∃ radix : Radix, (radix.digit? char).isSome := by
  obtain ⟨written, ⟨⟨front, back, rfl, blankFront, blankBack⟩, -, -⟩, writes⟩ := readWord_eq_ok_iff.mp read
  simp only [List.mem_append] at member
  rcases member with (member | member) | member
  · exact .inl (blankFront char member)
  · exact .inr (mem_of_writes writes member)
  · exact .inl (blankBack char member)

/-- A text is read as a word if it writes the word, and is refused if it writes none. A word that is printed writes
itself, with any blanks around it. -/
theorem readWord_reads (text : List Char) (value : Word) :
    (readWord text = .ok value ↔ ∃ written, Blank.Trimmed text written ∧ Writes written value.toNat) ∧
      ((∃ error, readWord text = .error error) ↔
        ¬ ∃ (value : Word) (written : List Char), Blank.Trimmed text written ∧ Writes written value.toNat) ∧
      ∀ (format : Format) (front back : List Char), (∀ c ∈ front, Blank.isBlank c = true) →
        (∀ c ∈ back, Blank.isBlank c = true) → readWord (front ++ format.write value ++ back) = .ok value := by
  refine ⟨readWord_eq_ok_iff, ?_, fun format front back => readWord_write format value⟩
  simp only [← readWord_eq_ok_iff]
  cases readWord text with
  | error error => simp
  | ok value => simp

/-- The greatest word, with capitals and more digits than it needs, between blanks of several kinds. -/
theorem readWord_reads_greatest :
    (∀ c ∈ ['\t', '\u3000'], Blank.isBlank c = true) ∧ (∀ c ∈ ['\r', '\n'], Blank.isBlank c = true) ∧
      ['\t', '\u3000'] ++ Format.write ⟨.hexadecimal, 10, true⟩ 0xFFFFFFFF ++ ['\r', '\n'] =
        "\t\u30000x00FFFFFFFF\r\n".toList ∧
      readWord (['\t', '\u3000'] ++ Format.write ⟨.hexadecimal, 10, true⟩ 0xFFFFFFFF ++ ['\r', '\n']) =
        .ok 0xFFFFFFFF := by
  have front : ∀ c ∈ ['\t', '\u3000'], Blank.isBlank c = true := List.all_eq_true.mp rfl
  have back : ∀ c ∈ ['\r', '\n'], Blank.isBlank c = true := List.all_eq_true.mp rfl
  exact ⟨front, back, by decide, (readWord_reads [] 0xFFFFFFFF).2.2 _ _ _ front back⟩

end Numeral

end Arm32
