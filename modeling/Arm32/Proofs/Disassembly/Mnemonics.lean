import Arm32.Disassembly.Core
import Arm32.Proofs.Text.Reading

/-! Mnemonics taken apart. A mnemonic is a stem, a condition and an ending, and operands never start like a condition
or an ending, so the text of an instruction says what each of the four is. -/

namespace Arm32

/-- What a mnemonic starts with. -/
inductive Stem where
  | alu (op : AluOp)
  | readStatus | writeStatus
  | multiply (op : MultiplyOp)
  | multiplyLong (op : MultiplyLongOp)
  | countLeadingZeros
  | swap
  | transfer (way : Transfer)
  | block (way : Transfer)
  deriving DecidableEq, Repr

namespace Stem

variable {stem other : Stem} {rest after : List Char}

def text : Stem → String
  | alu op => op.mnemonic
  | readStatus => "mrs"
  | writeStatus => "msr"
  | multiply op => op.mnemonic
  | multiplyLong op => op.mnemonic
  | countLeadingZeros => "clz"
  | swap => "swp"
  | transfer way => way.mnemonic
  | block way => way.blockMnemonic

def all : List Stem :=
  [.and, .eor, .sub, .rsb, .add, .adc, .sbc, .rsc, .tst, .teq, .cmp, .cmn, .orr, .mov, .bic, .mvn].map alu ++
    [readStatus, writeStatus, multiply .mul, multiply .mla, multiplyLong .umull, multiplyLong .umlal,
      multiplyLong .smull, multiplyLong .smlal, countLeadingZeros, swap, transfer .store, transfer .load,
      block .store, block .load]

def read? (text : List Char) : Option Stem := all.find? (·.text.toList.isPrefixOf text)

/-- No stem starts like another. -/
theorem read?_append (stem : Stem) (rest : List Char) : read? (stem.text.toList ++ rest) = some stem := by
  cases stem with
  | alu op => cases op <;> rfl
  | multiply op => cases op <;> rfl
  | multiplyLong op => cases op <;> rfl
  | transfer way => cases way <;> rfl
  | block way => cases way <;> rfl
  | _ => rfl

theorem append_inj (same : stem.text.toList ++ rest = other.text.toList ++ after) : stem = other ∧ rest = after := by
  have stems : stem = other := by
    have read := read?_append stem rest
    rw [same, read?_append] at read
    exact (Option.some.inj read).symm
  subst stems
  exact ⟨rfl, List.append_cancel_left same⟩

end Stem

def endings : List String := ["", "s", "b", "h", "sb", "sh", "ia", "ib", "da", "db"]

namespace Condition

variable {condition other : Condition} {ending after : String}

def suffixed : List Condition := [eq, ne, cs, cc, mi, pl, vs, vc, hi, ls, ge, lt, gt, le, nv]

/-- The condition that a text starts with, the one without a suffix if there is no other. -/
def read (text : List Char) : Condition := (suffixed.find? (·.suffix.toList.isPrefixOf text)).getD al

/-- No ending starts like a condition. -/
theorem read_append (condition : Condition) (listed : ending ∈ endings) :
    read (condition.suffix.toList ++ ending.toList) = condition := by
  cases condition with
  | al =>
      have alone : ∀ ending ∈ endings, read ending.toList = al := by decide
      exact alone ending listed
  | _ => rfl

theorem append_inj (listed : ending ∈ endings) (listedAfter : after ∈ endings)
    (same : condition.suffix.toList ++ ending.toList = other.suffix.toList ++ after.toList) :
    condition = other ∧ ending = after := by
  have conditions : condition = other := by
    rw [← read_append condition listed, same, read_append other listedAfter]
  subst conditions
  exact ⟨rfl, String.toList_inj.mp (List.append_cancel_left same)⟩

end Condition

namespace Layout

/-- The characters that end a mnemonic: the padding, and what operands start with. -/
def endsMnemonic (char : Char) : Bool := [' ', 'r', 'C'].contains char

theorem endsMnemonic_of_mem_suffix {condition : Condition} {char : Char} (member : char ∈ condition.suffix.toList) :
    endsMnemonic char = false := by
  have plain : condition.suffix.toList.all (endsMnemonic · == false) := by cases condition <;> decide
  exact beq_iff_eq.mp (List.all_eq_true.mp plain char member)

theorem endsMnemonic_of_mem_ending {ending : String} {char : Char} (listed : ending ∈ endings)
    (member : char ∈ ending.toList) : endsMnemonic char = false := by
  have plain : ∀ ending ∈ endings, ending.toList.all (endsMnemonic · == false) := by decide
  exact beq_iff_eq.mp (List.all_eq_true.mp (plain ending listed) char member)

variable {stem other : Stem} {condition condition' : Condition} {ending after operands others : String}

/-- What follows the condition and the ending, with the padding in front. -/
def padding (mnemonic operands : String) : List Char :=
  List.replicate (operandColumn - mnemonic.length) ' ' ++ operands.toList

theorem toList_text_columns :
    (columns (stem.text ++ condition.suffix ++ ending) operands).text.toList =
      stem.text.toList ++ ((condition.suffix.toList ++ ending.toList) ++
        padding (stem.text ++ condition.suffix ++ ending) operands) := by
  simp only [text, padded, padding, String.toList_append, String.toList_ofList, List.append_assoc]

theorem head?_padding {mnemonic : String} (starts : ∀ char ∈ operands.toList.head?, endsMnemonic char = true) :
    ∀ char ∈ (padding mnemonic operands).head?, endsMnemonic char = true := by
  unfold padding
  cases operandColumn - mnemonic.length with
  | zero => simpa using starts
  | succ count => simp [List.replicate_succ, endsMnemonic]

/-- The text of an instruction says what its mnemonic is made of and what its operands are. -/
theorem columns_inj (listed : ending ∈ endings) (listedAfter : after ∈ endings)
    (starts : ∀ char ∈ operands.toList.head?, endsMnemonic char = true)
    (startsOthers : ∀ char ∈ others.toList.head?, endsMnemonic char = true)
    (same : (columns (stem.text ++ condition.suffix ++ ending) operands).text =
      (columns (other.text ++ condition'.suffix ++ after) others).text) :
    stem = other ∧ condition = condition' ∧ ending = after ∧ operands = others := by
  have plain (condition : Condition) {ending : String} (listed : ending ∈ endings) :
      ∀ char ∈ condition.suffix.toList ++ ending.toList, endsMnemonic char = false := fun char member => by
    rcases List.mem_append.mp member with member | member
    · exact endsMnemonic_of_mem_suffix member
    · exact endsMnemonic_of_mem_ending listed member
  have letters := congrArg String.toList same
  rw [toList_text_columns, toList_text_columns] at letters
  obtain ⟨rfl, letters⟩ := Stem.append_inj letters
  obtain ⟨tail, padded⟩ := append_inj_of_stop (plain condition listed) (plain condition' listedAfter)
    (head?_padding starts) (head?_padding startsOthers) letters
  obtain ⟨rfl, rfl⟩ := Condition.append_inj listed listedAfter tail
  exact ⟨rfl, rfl, rfl, String.toList_inj.mp (List.append_cancel_left padded)⟩

end Layout
end Arm32
