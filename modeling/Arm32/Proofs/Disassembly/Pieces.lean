import Arm32.Proofs.Text.Reading

/-! What operands are written with: registers, immediates and single characters. Where a register or an immediate is
closed by punctuation or by the end, the text can be read in one way only. -/

namespace Arm32

inductive Piece where
  | register (reg : Reg)
  | immediate (value : Word)
  | mark (char : Char)
  deriving DecidableEq, Repr

namespace Piece

variable {style : ImmediateStyle} {pieces others : List Piece} {char : Char}

def chars (style : ImmediateStyle) : Piece → List Char
  | register reg => reg.name.toList
  | immediate value => (style.write value).toList
  | mark char => [char]

/-- Pieces in a row. -/
def text (style : ImmediateStyle) (pieces : List Piece) : List Char := pieces.flatMap (chars style)

/-- The punctuation that may follow a register or an immediate. -/
def closes (char : Char) : Bool := [',', ']', '}', '!'].contains char

/-- Nothing runs into what follows it. -/
def Separate : List Piece → Prop
  | [] => True
  | mark char :: rest => char.isDigit = false ∧ char ≠ '#' ∧ Separate rest
  | _ :: rest => (∀ next ∈ rest.head?, ∃ char, next = mark char ∧ closes char = true) ∧ Separate rest

@[simp]
theorem text_nil : text style [] = [] := rfl

@[simp]
theorem text_cons {piece : Piece} : text style (piece :: pieces) = piece.chars style ++ text style pieces := rfl

@[simp]
theorem text_append : text style (pieces ++ others) = text style pieces ++ text style others :=
  List.flatMap_append

theorem chars_register (reg : Reg) : chars style (register reg) = 'r' :: Nat.toDigits 10 reg.toNat := by
  simp [chars, Reg.name]

theorem chars_immediate (value : Word) : chars style (immediate value) = '#' :: style.digits value :=
  ImmediateStyle.toList_write style value

/-! ### Reading up to the punctuation -/

theorem not_closes_of_digit? {radix : Numeral.Radix} (digit : (radix.digit? char).isSome) : closes char = false := by
  have punctuation : [',', ']', '}', '!'].all (radix.digit? · == none) := by cases radix <;> decide
  simp only [closes, List.contains_eq_mem, decide_eq_false_iff_not]
  intro member
  have none : radix.digit? char = none := by simpa using List.all_eq_true.mp punctuation char member
  simp [none] at digit

theorem not_closes_of_mem_toDigits {value : Nat} (member : char ∈ Nat.toDigits 10 value) : closes char = false :=
  not_closes_of_digit? (Numeral.isSome_digit?_of_mem_toDigits .decimal member)

theorem not_closes_of_mem_digits {value : Word} (member : char ∈ style.digits value) : closes char = false := by
  rcases ImmediateStyle.mem_digits member with rfl | rfl | ⟨radix, digit⟩
  · decide
  · decide
  · exact not_closes_of_digit? digit

theorem head?_text_of_separate (style : ImmediateStyle) (separate : Separate pieces) :
    ∀ char ∈ (text style pieces).head?, char.isDigit = false := by
  cases pieces with
  | nil => simp
  | cons piece rest =>
      cases piece with
      | register reg => simp [chars_register]
      | immediate value => simp [chars_immediate]
      | mark char => simpa [chars] using separate.1

theorem head?_text_of_closed (closed : ∀ next ∈ pieces.head?, ∃ char, next = mark char ∧ closes char = true) :
    ∀ char ∈ (text style pieces).head?, closes char = true := by
  cases pieces with
  | nil => simp
  | cons piece rest =>
      obtain ⟨char, rfl, closes⟩ := closed piece rfl
      simpa [chars] using closes

/-- A register starts with a letter that a mark could be too, but then a digit follows. -/
theorem not_mark_of_register {reg : Reg} {rest : List Piece} (separate : Separate rest)
    (same : chars style (register reg) ++ text style others = char :: text style rest) : False := by
  have digits : Nat.toDigits 10 reg.toNat ++ text style others = text style rest := by
    rw [chars_register] at same
    exact (List.cons.inj same).2
  cases written : Nat.toDigits 10 reg.toNat with
  | nil => exact Nat.toDigits_ne_nil written
  | cons digit more =>
      rw [written] at digits
      have isDigit : digit.isDigit = true :=
        Nat.isDigit_of_mem_toDigits (Nat.succ_pos 9) (Nat.le_refl 10) (by rw [written]; exact List.mem_cons_self)
      have notDigit : digit.isDigit = false := head?_text_of_separate style separate digit (by
        rw [← digits]
        rfl)
      rw [isDigit] at notDigit
      cases notDigit

theorem chars_ne_nil (piece : Piece) : chars style piece ≠ [] := by
  cases piece with
  | register reg => simp [chars_register]
  | immediate value => simp [chars_immediate]
  | mark char => exact List.cons_ne_nil _ _

theorem eq_nil_of_text_eq_nil (empty : text style pieces = []) : pieces = [] := by
  cases pieces with
  | nil => rfl
  | cons piece rest => exact absurd (List.append_eq_nil_iff.mp empty).1 (chars_ne_nil piece)

/-- Text that is made of separate pieces is made of no others. -/
theorem text_inj (separate : Separate pieces) (apart : Separate others) (same : text style pieces = text style others) :
    pieces = others := by
  induction pieces generalizing others with
  | nil => exact (eq_nil_of_text_eq_nil same.symm).symm
  | cons piece rest ih =>
      cases others with
      | nil => exact eq_nil_of_text_eq_nil same
      | cons other after =>
          rw [text_cons, text_cons] at same
          cases piece with
          | register reg =>
              cases other with
              | register reg' =>
                  rw [chars_register, chars_register] at same
                  obtain ⟨digits, following⟩ := append_inj_of_stop (fun _ => not_closes_of_mem_toDigits)
                    (fun _ => not_closes_of_mem_toDigits) (head?_text_of_closed separate.1)
                    (head?_text_of_closed apart.1) (List.cons.inj same).2
                  rw [BitVec.toNat_inj.mp (Numeral.toDigits_inj .decimal digits), ih separate.2 apart.2 following]
              | immediate value =>
                  rw [chars_register, chars_immediate] at same
                  exact absurd (List.cons.inj same).1 (by decide)
              | mark char => exact (not_mark_of_register apart.2.2 same).elim
          | immediate value =>
              cases other with
              | register reg =>
                  rw [chars_register, chars_immediate] at same
                  exact absurd (List.cons.inj same).1 (by decide)
              | immediate value' =>
                  rw [chars_immediate, chars_immediate] at same
                  obtain ⟨digits, following⟩ := append_inj_of_stop (fun _ => not_closes_of_mem_digits)
                    (fun _ => not_closes_of_mem_digits) (head?_text_of_closed separate.1)
                    (head?_text_of_closed apart.1) (List.cons.inj same).2
                  rw [ImmediateStyle.digits_inj digits, ih separate.2 apart.2 following]
              | mark char =>
                  rw [chars_immediate] at same
                  exact absurd (List.cons.inj same).1.symm apart.2.1
          | mark char =>
              cases other with
              | register reg => exact (not_mark_of_register separate.2.2 same.symm).elim
              | immediate value =>
                  rw [chars_immediate] at same
                  exact absurd (List.cons.inj same).1 separate.2.1
              | mark char' =>
                  obtain ⟨rfl, following⟩ := List.cons.inj same
                  rw [ih separate.2.2 apart.2.2 following]

end Piece
end Arm32
