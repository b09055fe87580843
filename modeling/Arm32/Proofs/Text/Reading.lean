import Mathlib.Data.List.Basic
import Arm32.Disassembly.Layout
import Arm32.Numeral

/-! Text that is read back. A part that goes on up to a mark can be told from what follows it, and digits are read as
the number they were made of, so no two numbers are written alike. -/

namespace Arm32

theorem append_inj_of_stop {α : Type} {stop : α → Bool} {first second rest after : List α}
    (plain : ∀ item ∈ first, stop item = false) (others : ∀ item ∈ second, stop item = false)
    (stopped : ∀ item ∈ rest.head?, stop item = true) (stoppedAfter : ∀ item ∈ after.head?, stop item = true)
    (same : first ++ rest = second ++ after) : first = second ∧ rest = after := by
  have taken (front back : List α) (plain : ∀ item ∈ front, stop item = false)
      (stopped : ∀ item ∈ back.head?, stop item = true) : (front ++ back).takeWhile (!stop ·) = front := by
    rw [List.takeWhile_append_of_pos (by simpa using plain)]
    cases back with
    | nil => simp
    | cons item back => simp [stopped item rfl]
  have front : first = second := by
    rw [← taken first rest plain stopped, same, taken second after others stoppedAfter]
  subst front
  exact ⟨rfl, List.append_cancel_left same⟩

section Mark

variable {front back : List Char} {mark : Char}

theorem bne_of_not_mem (plain : mark ∉ front) : ∀ char ∈ front, (char != mark) = true := by
  intro char member
  exact bne_iff_ne.mpr (ne_of_mem_of_not_mem member plain)

theorem takeWhile_append_mark (plain : mark ∉ front) : (front ++ mark :: back).takeWhile (· != mark) = front := by
  rw [List.takeWhile_append_of_pos (bne_of_not_mem plain)]
  simp

theorem dropWhile_append_mark (plain : mark ∉ front) :
    (front ++ mark :: back).dropWhile (· != mark) = mark :: back := by
  rw [List.dropWhile_append_of_pos (bne_of_not_mem plain)]
  simp

end Mark

namespace Numeral

variable {radix : Radix} {limit value : Nat} {char : Char}

theorem digit?_digitChar {digit : Nat} (below : digit < radix.base) : radix.digit? digit.digitChar = some digit := by
  cases radix <;> simp only [Radix.base] at below <;> decide +revert

theorem extend_append (digits rest : List Char) :
    extend radix limit value (digits ++ rest) = (extend radix limit value digits).bind (extend radix limit · rest) := by
  induction digits generalizing value with
  | nil => rfl
  | cons char digits ih =>
      simp only [List.cons_append, extend]
      cases radix.digit? char with
      | none => rfl
      | some digit =>
          by_cases below : radix.base * value + digit < limit
          · simp only [below, if_true, ih]
          · simp only [below, if_false, Except.bind]

theorem extend_toDigits (below : value < limit) :
    extend radix limit 0 (Nat.toDigits radix.base value) = .ok value := by
  have base : 1 < radix.base := by cases radix <;> decide
  induction value using Nat.base_induction radix.base base with
  | single digit small =>
      simp [Nat.toDigits_of_lt_base small, extend, digit?_digitChar small, below]
  | digit front digit small positive ih =>
      have smaller : 2 * front ≤ radix.base * front := Nat.mul_le_mul_right front base
      rw [← Nat.toDigits_append_toDigits base positive small, extend_append, ih (by omega)]
      simp [Nat.toDigits_of_lt_base small, extend, digit?_digitChar small, below, Except.bind]

theorem extend_replicate_zero (positive : 0 < limit) (count : Nat) :
    extend radix limit 0 (List.replicate count '0') = .ok 0 := by
  induction count with
  | zero => rfl
  | succ count ih =>
      have zero : radix.digit? '0' = some 0 := by cases radix <;> decide
      simp [List.replicate_succ, extend, zero, positive, ih]

theorem isSome_digit?_of_extend {digits : List Char} {start : Nat} (read : extend radix limit start digits = .ok value)
    (member : char ∈ digits) : (radix.digit? char).isSome := by
  induction digits generalizing start with
  | nil => cases member
  | cons first rest ih =>
      cases found : radix.digit? first with
      | none => simp [extend, found] at read
      | some digit =>
          by_cases below : radix.base * start + digit < limit
          · simp only [extend, found, below, if_true] at read
            cases member with
            | head => rw [found]; rfl
            | tail _ member => exact ih read member
          · simp [extend, found, below] at read

theorem isSome_digit?_of_mem_toDigits (radix : Radix) (member : char ∈ Nat.toDigits radix.base value) : (radix.digit? char).isSome :=
  isSome_digit?_of_extend (extend_toDigits (Nat.lt_succ_self value)) member

theorem not_mem_toDigits (other : Radix.decimal.digit? char = none) (value : Nat) : char ∉ Nat.toDigits 10 value := by
  intro member
  have digit := isSome_digit?_of_mem_toDigits .decimal member
  rw [other] at digit
  cases digit

theorem toDigits_inj (radix : Radix) {first second : Nat}
    (same : Nat.toDigits radix.base first = Nat.toDigits radix.base second) : first = second := by
  have readFirst : extend radix (first + second + 1) 0 (Nat.toDigits radix.base first) = .ok first :=
    extend_toDigits (by omega)
  have readSecond : extend radix (first + second + 1) 0 (Nat.toDigits radix.base second) = .ok second :=
    extend_toDigits (by omega)
  rw [same, readSecond] at readFirst
  exact (Except.ok.inj readFirst).symm

end Numeral

namespace Hex

open Numeral (extend)

variable {width value limit : Nat}

theorem extend_padded (below : value < limit) :
    extend .hexadecimal limit 0 (padded width value).toList = .ok value := by
  rw [padded, String.toList_ofList, Numeral.extend_append, Numeral.extend_replicate_zero (by omega)]
  exact Numeral.extend_toDigits below

theorem padded_inj {first second : Nat} (same : (padded width first).toList = (padded width second).toList) :
    first = second := by
  have readFirst : extend .hexadecimal (first + second + 1) 0 (padded width first).toList = .ok first :=
    extend_padded (by omega)
  have readSecond : extend .hexadecimal (first + second + 1) 0 (padded width second).toList = .ok second :=
    extend_padded (by omega)
  rw [same, readSecond] at readFirst
  exact (Except.ok.inj readFirst).symm

end Hex

/-! ### Immediate operands -/

namespace ImmediateStyle

variable {style : ImmediateStyle} {char : Char}

theorem toList_toString (value : Int) :
    (toString value).toList =
      if 0 ≤ value then Nat.toDigits 10 value.toNat else '-' :: Nat.toDigits 10 (-value).toNat := by
  rw [Int.toString_eq_repr, Int.repr_eq_if]
  split <;> simp

theorem toString_inj {first second : Int} (same : (toString first).toList = (toString second).toList) :
    first = second := by
  have unsigned (value : Nat) : '-' ∉ Nat.toDigits 10 value := Numeral.not_mem_toDigits (by decide) value
  rw [toList_toString, toList_toString] at same
  split at same <;> split at same
  · have := Numeral.toDigits_inj .decimal same
    omega
  · exact absurd (by rw [same]; exact List.mem_cons_self) (unsigned first.toNat)
  · exact absurd (by rw [← same]; exact List.mem_cons_self) (unsigned second.toNat)
  · have := Numeral.toDigits_inj .decimal (List.cons.inj same).2
    omega

/-- What stands behind the number sign. -/
def digits (style : ImmediateStyle) (value : Word) : List Char :=
  match style with
  | decimal => (toString value.toInt).toList
  | hex => (Hex.word value).toList

theorem toList_write (style : ImmediateStyle) (value : Word) : (style.write value).toList = '#' :: style.digits value := by
  cases style <;> simp [write, digits]

theorem digits_inj {first second : Word} (same : style.digits first = style.digits second) : first = second := by
  cases style with
  | decimal => exact BitVec.toInt_inj.mp (toString_inj same)
  | hex =>
      simp only [digits, Hex.word, String.toList_append] at same
      exact BitVec.toNat_inj.mp (Hex.padded_inj (List.append_cancel_left same))

theorem mem_digits {value : Word} (member : char ∈ style.digits value) :
    char = '-' ∨ char = 'x' ∨ ∃ radix : Numeral.Radix, (radix.digit? char).isSome := by
  cases style with
  | decimal =>
      have digit {value : Nat} (member : char ∈ Nat.toDigits 10 value) : (Numeral.Radix.decimal.digit? char).isSome :=
        Numeral.isSome_digit?_of_mem_toDigits .decimal member
      rw [digits, toList_toString] at member
      split at member
      · exact .inr (.inr ⟨.decimal, digit member⟩)
      · cases member with
        | head => exact .inl rfl
        | tail _ member => exact .inr (.inr ⟨.decimal, digit member⟩)
  | hex =>
      simp only [digits, Hex.word, String.toList_append, List.mem_append] at member
      rcases member with mark | member
      · obtain rfl | rfl : char = '0' ∨ char = 'x' := by simpa using mark
        · exact .inr (.inr ⟨.hexadecimal, by decide⟩)
        · exact .inr (.inl rfl)
      · exact .inr (.inr ⟨.hexadecimal, Numeral.isSome_digit?_of_extend (Hex.extend_padded value.isLt) member⟩)

end ImmediateStyle

end Arm32
