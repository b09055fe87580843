import Arm32.Listing
import Arm32.Numeral

/-! Comments of a program in a file, one on a line: an offset, a semicolon and the text, which may hold
more semicolons. Blank lines carry nothing but are counted. -/

namespace Arm32.CommentFile

/-- Why a line is no comment. -/
inductive Flaw where
  | noSeparator
  | offset (error : Numeral.Error)
  deriving DecidableEq, Repr

def Flaw.message : Flaw → String
  | noSeparator => "expected `offset;text`"
  | offset error => error.message

structure Error where
  /-- Counted from one. -/
  line : Nat
  flaw : Flaw
  deriving DecidableEq, Repr

def Error.message (error : Error) : String := s!"line {error.line}: {error.flaw.message}"

/-- The lines of a text. A line ends at a line feed, and a carriage return just before it belongs to the
ending; what follows the last line feed is a line unless it is empty. -/
def lines : List Char → List (List Char)
  | [] => []
  | '\n' :: rest => [] :: lines rest
  | '\r' :: '\n' :: rest => [] :: lines rest
  | c :: rest =>
    match lines rest with
    | [] => [[c]]
    | line :: others => (c :: line) :: others

/-- The comment on a line that is not blank. -/
def comment (line : List Char) : Except Flaw Comment :=
  match line.dropWhile (· != ';') with
  | [] => .error .noSeparator
  | _ :: text =>
    match Numeral.readWord (line.takeWhile (· != ';')) with
    | .ok offset => .ok { offset, text := String.ofList text }
    | .error error => .error (.offset error)

/-- The comments on lines of which the first has this number. The first line at fault decides. -/
def commentsFrom (number : Nat) : List (List Char) → Except Error (List Comment)
  | [] => .ok []
  | line :: rest =>
    if line.all Blank.isBlank then commentsFrom (number + 1) rest
    else
      match comment line with
      | .error flaw => .error { line := number, flaw }
      | .ok first => (commentsFrom (number + 1) rest).map (first :: ·)

/-- By offset, and in the order of the file where offsets are equal. -/
def sorted (comments : List Comment) : List Comment :=
  comments.mergeSort fun a b => decide (a.offset ≤ b.offset)

def parse (text : String) : Except Error (List Comment) :=
  (commentsFrom 1 (lines text.toList)).map sorted

end Arm32.CommentFile
