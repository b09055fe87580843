import Arm32.Proofs.Disassembly.Pieces
import Arm32.Proofs.Encoding.Notes

/-! The pieces that operands are written with, and what they say of the operands. -/

namespace Arm32

namespace Piece

variable {style : ImmediateStyle} {pieces others : List Piece}

def marks (text : String) : List Piece := text.toList.map mark

def comma : List Piece := [mark ',', mark ' ']

@[simp]
theorem text_marks {written : String} : text style (marks written) = written.toList := by
  simp [marks, text, chars, List.flatMap_map]

@[simp]
theorem text_comma : text style comma = [',', ' '] := rfl

theorem Separate.append (first : Separate pieces) (second : Separate others)
    (closed : ∀ next ∈ others.head?, ∃ char, next = mark char ∧ closes char = true) : Separate (pieces ++ others) := by
  induction pieces with
  | nil => exact second
  | cons piece rest ih =>
      have following : ∀ next ∈ (rest ++ others).head?, (∀ next ∈ rest.head?, ∃ char, next = mark char ∧ closes char = true) →
          ∃ char, next = mark char ∧ closes char = true := by
        intro next head within
        cases rest with
        | nil => exact closed next head
        | cons inner rest => exact within next head
      cases piece with
      | mark char => exact ⟨first.1, first.2.1, ih first.2.2⟩
      | register reg => exact ⟨fun next head => following next head first.1, ih first.2⟩
      | immediate value => exact ⟨fun next head => following next head first.1, ih first.2⟩

end Piece

open Piece

variable {style : ImmediateStyle}

/-! ### Shifted registers -/

def ShiftKind.pieces (kind : ShiftKind) (amount : Piece) : List Piece :=
  comma ++ marks kind.mnemonic ++ [mark ' ', amount]

/-- The amount behind the name. No places stand for as many as there are. -/
def ShiftAmount.piece : ShiftAmount → Piece
  | register rs _ => .register rs
  | immediate places => .immediate (if places = 0 then 32 else places.setWidth 32)

/-- A shift by no places is left out or has a name of its own, but for the two kinds that cannot do it. -/
def ShiftAmount.pieces (kind : ShiftKind) (amount : ShiftAmount) : List Piece :=
  match kind, amount with
  | .lsl, immediate 0 => []
  | .ror, immediate 0 => marks ", rrx"
  | kind, amount => kind.pieces amount.piece

def ShiftedRegister.pieces (operand : ShiftedRegister) : List Piece :=
  .register operand.rm :: operand.amount.pieces operand.kind

theorem ShiftKind.pieces_inj {kind other : ShiftKind} {amount after : Piece}
    (same : kind.pieces amount = other.pieces after) : kind = other ∧ amount = after := by
  cases kind <;> cases other <;> simp [pieces, marks, mnemonic, comma] at same ⊢ <;> exact same

theorem ShiftKind.length_pieces {kind : ShiftKind} {amount : Piece} : (kind.pieces amount).length = 7 := by
  cases kind <;> rfl

theorem ShiftKind.separate_pieces {kind : ShiftKind} {amount : Piece} (alone : Separate [amount]) :
    Separate (kind.pieces amount) := by
  cases kind <;> simpa [pieces, marks, comma, mnemonic, Separate] using alone

theorem ShiftKind.text_pieces {kind : ShiftKind} {amount : Piece} :
    text style (kind.pieces amount) = ", ".toList ++ kind.mnemonic.toList ++ ' ' :: amount.chars style := by
  simp [pieces, chars]

namespace ShiftAmount

variable {kind other : ShiftKind} {amount after : ShiftAmount} {places : BitVec 5}

theorem pieces_cases (kind : ShiftKind) (amount : ShiftAmount) :
    (kind = .lsl ∧ amount = immediate 0 ∧ amount.pieces kind = []) ∨
      (kind = .ror ∧ amount = immediate 0 ∧ amount.pieces kind = marks ", rrx") ∨
      amount.pieces kind = kind.pieces amount.piece := by
  unfold pieces
  split
  case h_1 => exact .inl ⟨rfl, rfl, rfl⟩
  case h_2 => exact .inr (.inl ⟨rfl, rfl, rfl⟩)
  case h_3 => exact .inr (.inr rfl)

theorem separate_pieces : Separate (amount.pieces kind) := by
  rcases pieces_cases kind amount with ⟨-, -, written⟩ | ⟨-, -, written⟩ | written
  · rw [written]
    trivial
  · rw [written]
    simp [marks, Separate]
  · rw [written]
    exact ShiftKind.separate_pieces (by cases amount <;> simp [piece, Separate])

theorem head?_pieces : ∀ next ∈ (amount.pieces kind).head?, ∃ char, next = mark char ∧ closes char = true := by
  rcases pieces_cases kind amount with ⟨-, -, written⟩ | ⟨-, -, written⟩ | written <;> rw [written]
  · simp
  · simp [marks, closes]
  · simp [ShiftKind.pieces, comma, closes]

theorem piece_inj (permitted : amount.isForbidden = false) (permittedAfter : after.isForbidden = false)
    (same : amount.piece = after.piece) : amount = after := by
  cases amount with
  | register rs reserved =>
      cases after with
      | register rs' reserved' =>
          simp only [isForbidden, Bool.or_eq_false_iff] at permitted permittedAfter
          rw [Piece.register.inj same, permitted.2, permittedAfter.2]
      | immediate places => cases same
  | immediate places =>
      cases after with
      | register rs reserved => cases same
      | immediate places' =>
          have values := Piece.immediate.inj same
          split at values <;> split at values <;> congr 1 <;> bv_omega

/-- A shift is written in one way only, but for a bit that ought to be clear. -/
theorem pieces_inj (permitted : amount.isForbidden = false) (permittedAfter : after.isForbidden = false)
    (same : amount.pieces kind = after.pieces other) : kind = other ∧ amount = after := by
  have lengths := congrArg List.length same
  rcases pieces_cases kind amount with ⟨isLsl, zero, written⟩ | ⟨isRor, zero, written⟩ | written
  · rcases pieces_cases other after with ⟨isLslAfter, zeroAfter, -⟩ | ⟨-, -, writtenAfter⟩ | writtenAfter
    · exact ⟨isLsl.trans isLslAfter.symm, zero.trans zeroAfter.symm⟩
    · simp [written, writtenAfter, marks] at lengths
    · simp [written, writtenAfter, ShiftKind.length_pieces] at lengths
  · rcases pieces_cases other after with ⟨-, -, writtenAfter⟩ | ⟨isRorAfter, zeroAfter, -⟩ | writtenAfter
    · simp [written, writtenAfter, marks] at lengths
    · exact ⟨isRor.trans isRorAfter.symm, zero.trans zeroAfter.symm⟩
    · simp [written, writtenAfter, marks, ShiftKind.length_pieces] at lengths
  · rcases pieces_cases other after with ⟨-, -, writtenAfter⟩ | ⟨-, -, writtenAfter⟩ | writtenAfter
    · simp [written, writtenAfter, ShiftKind.length_pieces] at lengths
    · simp [written, writtenAfter, marks, ShiftKind.length_pieces] at lengths
    · rw [written, writtenAfter] at same
      obtain ⟨rfl, amounts⟩ := ShiftKind.pieces_inj same
      exact ⟨rfl, piece_inj permitted permittedAfter amounts⟩

end ShiftAmount

namespace ShiftedRegister

variable {operand other : ShiftedRegister}

theorem text_pieces : text style operand.pieces = (operand.render style).toList := by
  obtain ⟨rm, kind, amount⟩ := operand
  cases amount with
  | register rs reserved =>
      simp [pieces, ShiftAmount.pieces, ShiftKind.text_pieces, ShiftAmount.piece, render, chars]
  | immediate places =>
      by_cases zero : places = 0
      · subst zero
        cases kind <;> simp [pieces, ShiftAmount.pieces, ShiftKind.text_pieces, ShiftAmount.piece, render, chars]
      · have named : (ShiftAmount.immediate places).pieces kind = kind.pieces (.immediate (places.setWidth 32)) := by
          rw [ShiftAmount.pieces, ShiftAmount.piece, if_neg zero]
          all_goals exact fun _ none => zero (ShiftAmount.immediate.inj none)
        simp only [pieces, named, render, if_neg zero]
        simp [ShiftKind.text_pieces, chars]

theorem separate_pieces : Separate operand.pieces :=
  ⟨ShiftAmount.head?_pieces, ShiftAmount.separate_pieces⟩

/-- A shifted register is written in one way only. -/
theorem pieces_inj (permitted : operand.isForbidden = false) (permittedAfter : other.isForbidden = false)
    (same : operand.pieces = other.pieces) : operand = other := by
  obtain ⟨registers, shifts⟩ := List.cons.inj same
  obtain ⟨kinds, amounts⟩ := ShiftAmount.pieces_inj permitted permittedAfter shifts
  calc operand
    _ = ⟨operand.rm, operand.kind, operand.amount⟩ := rfl
    _ = ⟨other.rm, other.kind, other.amount⟩ := by rw [Piece.register.inj registers, kinds, amounts]

/-- No bracket is in the way of the one that ends an address. -/
theorem bracket_not_mem_pieces : mark ']' ∉ operand.pieces := by
  obtain ⟨rm, kind, amount⟩ := operand
  rw [pieces, List.mem_cons, not_or]
  refine ⟨Piece.noConfusion, ?_⟩
  rcases ShiftAmount.pieces_cases kind amount with ⟨-, -, written⟩ | ⟨-, -, written⟩ | written <;> rw [written]
  · simp
  · simp [marks]
  · cases amount <;> cases kind <;> simp [ShiftKind.pieces, comma, marks, ShiftKind.mnemonic, ShiftAmount.piece]

end ShiftedRegister

/-! ### Second operands -/

namespace Operand2

variable {operand other : Operand2}

def pieces : Operand2 → List Piece
  | immediate base rotate => [.immediate (Shifter.rotated base rotate)]
  | register operand => operand.pieces

theorem text_pieces : text style operand.pieces = (operand.render style).toList := by
  cases operand with
  | immediate base rotate => simp [pieces, render, chars]
  | register operand => exact ShiftedRegister.text_pieces

theorem separate_pieces : Separate operand.pieces := by
  cases operand with
  | immediate base rotate => simp [pieces, Separate]
  | register operand => exact ShiftedRegister.separate_pieces

/-- The text of an immediate is its value, whichever way it is encoded. -/
theorem pieces_inj (permitted : operand.isForbidden = false) (permittedAfter : other.isForbidden = false)
    (same : operand.pieces = other.pieces) :
    (∃ base rotate base' rotate', operand = immediate base rotate ∧ other = immediate base' rotate' ∧
      Shifter.rotated base rotate = Shifter.rotated base' rotate') ∨ operand = other := by
  cases operand with
  | immediate base rotate =>
      cases other with
      | immediate base' rotate' =>
          exact .inl ⟨base, rotate, base', rotate', rfl, rfl, Piece.immediate.inj (List.cons.inj same).1⟩
      | register operand' => cases (List.cons.inj same).1
  | register operand =>
      cases other with
      | immediate base' rotate' => cases (List.cons.inj same).1
      | register operand' => exact .inr (congrArg _ (ShiftedRegister.pieces_inj permitted permittedAfter same))

end Operand2

/-! ### Addresses -/

namespace Addressing

variable {mode other : Addressing} {rn rn' : Reg} {offset offset' : Word} {pieces pieces' : List Piece}

def writeBackPieces (mode : Addressing) : List Piece := if mode.writeBack then [mark '!'] else []

def signPieces (mode : Addressing) : List Piece :=
  match mode.direction with
  | .down => [mark '-']
  | .up => []

def immediatePieces (mode : Addressing) (rn : Reg) (offset : Word) : List Piece :=
  if offset = 0 then [mark '[', .register rn, mark ']']
  else
    match mode.indexing with
    | .pre => [mark '[', .register rn] ++ comma ++ [.immediate offset, mark ']'] ++ mode.writeBackPieces
    | .post => [mark '[', .register rn, mark ']'] ++ comma ++ [.immediate offset]

def registerPieces (mode : Addressing) (rn : Reg) (pieces : List Piece) : List Piece :=
  match mode.indexing with
  | .pre =>
    [mark '[', .register rn] ++ comma ++ mode.signPieces ++ (pieces ++ mark ']' :: mode.writeBackPieces)
  | .post => [mark '[', .register rn, mark ']'] ++ comma ++ mode.signPieces ++ pieces

theorem text_immediatePieces :
    text style (mode.immediatePieces rn offset) = (mode.renderImmediate style rn offset).toList := by
  unfold immediatePieces renderImmediate
  cases mode.indexing with
  | pre =>
      cases writeBack : mode.writeBack <;> split <;> simp [chars, writeBackPieces, writeBack]
  | post => split <;> simp [chars]

theorem text_registerPieces {written : String} (same : text style pieces = written.toList) :
    text style (mode.registerPieces rn pieces) = (mode.renderRegister rn written).toList := by
  unfold registerPieces renderRegister
  cases indexing : mode.indexing <;> cases direction : mode.direction <;> cases writeBack : mode.writeBack <;>
    simp [chars, same, signPieces, writeBackPieces, Direction.sign, direction, writeBack]

theorem separate_immediatePieces : Separate (mode.immediatePieces rn offset) := by
  unfold immediatePieces writeBackPieces
  cases mode.indexing <;> cases mode.writeBack <;> split <;> simp [Separate, comma, closes]

theorem separate_registerPieces (separate : Separate pieces) : Separate (mode.registerPieces rn pieces) := by
  have closed : Separate (pieces ++ mark ']' :: mode.writeBackPieces) := by
    refine separate.append ?_ (by simp [closes])
    cases writeBack : mode.writeBack <;> simp [writeBackPieces, writeBack, Separate]
  unfold registerPieces signPieces
  cases mode.indexing <;> cases mode.direction <;> simpa [Separate, comma, closes] using (by assumption)

theorem writeBackPieces_inj (same : mode.writeBackPieces = other.writeBackPieces) :
    mode.writeBack = other.writeBack := by
  unfold writeBackPieces at same
  cases writeBack : mode.writeBack <;> cases writeBackAfter : other.writeBack <;>
    simp [writeBack, writeBackAfter] at same ⊢

theorem bracket_not_mem_writeBackPieces : mark ']' ∉ mode.writeBackPieces := by
  unfold writeBackPieces
  split <;> simp

/-- A sign is told apart from the register that follows it. -/
theorem signPieces_inj {rm rm' : Reg}
    (same : mode.signPieces ++ .register rm :: pieces = other.signPieces ++ .register rm' :: pieces') :
    mode.direction = other.direction ∧ rm = rm' ∧ pieces = pieces' := by
  unfold signPieces at same
  cases direction : mode.direction <;> cases directionAfter : other.direction <;>
    simp [direction, directionAfter] at same ⊢ <;> exact same

/-- A zero offset is left out, and with it all that is said of how it is used. -/
theorem immediatePieces_inj (same : mode.immediatePieces rn offset = other.immediatePieces rn' offset') :
    rn = rn' ∧ offset = offset' ∧
      (offset = 0 ∨ mode.indexing = other.indexing ∧ (mode.indexing = .pre → mode.writeBack = other.writeBack)) := by
  unfold immediatePieces at same
  by_cases zero : offset = 0
  · by_cases zeroAfter : offset' = 0
    · rw [if_pos zero, if_pos zeroAfter] at same
      exact ⟨by simpa using same, zero.trans zeroAfter.symm, .inl zero⟩
    · rw [if_pos zero, if_neg zeroAfter] at same
      cases indexing : other.indexing <;> simp [indexing, comma] at same
  · by_cases zeroAfter : offset' = 0
    · rw [if_neg zero, if_pos zeroAfter] at same
      cases indexing : mode.indexing <;> simp [indexing, comma] at same
    · rw [if_neg zero, if_neg zeroAfter] at same
      cases indexing : mode.indexing with
      | pre =>
          cases indexingAfter : other.indexing with
          | pre =>
              obtain ⟨bases, offsets, written⟩ : rn = rn' ∧ offset = offset' ∧
                  mode.writeBackPieces = other.writeBackPieces := by
                simpa [indexing, indexingAfter, comma] using same
              exact ⟨bases, offsets, .inr ⟨rfl, fun _ => writeBackPieces_inj written⟩⟩
          | post => simp [indexing, indexingAfter, comma] at same
      | post =>
          cases indexingAfter : other.indexing with
          | pre => simp [indexing, indexingAfter, comma] at same
          | post =>
              obtain ⟨bases, offsets⟩ : rn = rn' ∧ offset = offset' := by
                simpa [indexing, indexingAfter, comma] using same
              exact ⟨bases, offsets, .inr ⟨rfl, nofun⟩⟩

theorem registerPieces_inj {rm rm' : Reg} (plain : mark ']' ∉ pieces)
    (same : mode.registerPieces rn (.register rm :: pieces) = other.registerPieces rn' (.register rm' :: pieces')) :
    rn = rn' ∧ rm = rm' ∧ pieces = pieces' ∧ mode.indexing = other.indexing ∧ mode.direction = other.direction ∧
      (mode.indexing = .pre → mode.writeBack = other.writeBack) := by
  unfold registerPieces at same
  cases indexing : mode.indexing with
  | pre =>
      cases indexingAfter : other.indexing with
      | pre =>
          obtain ⟨bases, signed⟩ : rn = rn' ∧
              mode.signPieces ++ .register rm :: (pieces ++ mark ']' :: mode.writeBackPieces) =
                other.signPieces ++ .register rm' :: (pieces' ++ mark ']' :: other.writeBackPieces) := by
            simpa [indexing, indexingAfter, comma] using same
          obtain ⟨directions, offsets, closed⟩ := signPieces_inj signed
          obtain ⟨shifts, -, written⟩ := (List.append_cons_inj_of_notMem plain bracket_not_mem_writeBackPieces).mp closed
          exact ⟨bases, offsets, shifts, rfl, directions, fun _ => writeBackPieces_inj written⟩
      | post => simp [indexing, indexingAfter, comma] at same
  | post =>
      cases indexingAfter : other.indexing with
      | pre => simp [indexing, indexingAfter, comma] at same
      | post =>
          obtain ⟨bases, signed⟩ : rn = rn' ∧
              mode.signPieces ++ .register rm :: pieces = other.signPieces ++ .register rm' :: pieces' := by
            simpa [indexing, indexingAfter, comma] using same
          obtain ⟨directions, offsets, shifts⟩ := signPieces_inj signed
          exact ⟨bases, offsets, shifts, rfl, directions, nofun⟩

theorem immediatePieces_ne_registerPieces {rm : Reg} :
    mode.immediatePieces rn offset ≠ other.registerPieces rn' (.register rm :: pieces) := by
  unfold immediatePieces registerPieces signPieces
  cases mode.indexing <;> cases other.indexing <;> cases other.direction <;> split <;> simp [comma]

end Addressing

end Arm32
