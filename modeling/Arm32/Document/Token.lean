import Arm32.Document.Number
import Arm32.Numeral

/-! The tokens of JSON. A text is scanned character by character; what is being read meanwhile is part of
the state of the scan. -/

namespace Arm32.Document

inductive Token where
  | null
  | flag (value : Bool)
  | number (value : Option Int)
  | text (value : Option String)
  /-- One of `[]{},:`. -/
  | mark (c : Char)
  deriving DecidableEq, Repr

namespace Token

def isMark (c : Char) : Bool := c ∈ ['[', ']', '\x7b', '\x7d', ',', ':']

def isSpace (c : Char) : Bool := c ∈ [' ', '\t', '\n', '\r']

def isHighHalf (code : Nat) : Bool := 0xD800 ≤ code && code < 0xDC00
def isLowHalf (code : Nat) : Bool := 0xDC00 ≤ code && code < 0xE000

/-- The characters with these codes. Two halves of one character, high before low, are put together; a
half on its own is no character. -/
def characters? : List Nat → Option (List Char)
  | [] => some []
  | code :: rest =>
    if isHighHalf code then
      match rest with
      | low :: rest =>
        if isLowHalf low then
          (characters? rest).map (Char.ofNat (0x10000 + 0x400 * (code - 0xD800) + (low - 0xDC00)) :: ·)
        else none
      | [] => none
    else if isLowHalf code then none
    else (characters? rest).map (Char.ofNat code :: ·)

/-- Words and numbers, which stand without quotes. -/
def bare? (letters : List Char) : Option Token :=
  if letters = ['n', 'u', 'l', 'l'] then some null
  else if letters = ['t', 'r', 'u', 'e'] then some (flag true)
  else if letters = ['f', 'a', 'l', 's', 'e'] then some (flag false)
  else (Number.read? letters).map number

/-- The character that an escape of one letter stands for. -/
def escaped? : Char → Option Char
  | '"' => some '"'
  | '\\' => some '\\'
  | '/' => some '/'
  | 'b' => some '\x08'
  | 'f' => some '\x0c'
  | 'n' => some '\n'
  | 'r' => some '\r'
  | 't' => some '\t'
  | _ => none

/-- What the scan is in the middle of. Letters and codes are kept latest first. -/
inductive Part where
  /-- A token without quotes; no letters between two tokens. -/
  | bare (letters : List Char)
  | quoted (codes : List Nat)
  | escape (codes : List Nat)
  /-- The digits of an escape by number: how many have come, and their value. -/
  | numbered (codes : List Nat) (count value : Nat)
  deriving DecidableEq, Repr

structure Scan where
  /-- Tokens, latest first. -/
  tokens : List Token
  part : Part
  deriving DecidableEq, Repr

namespace Scan

def start : Scan := { tokens := [], part := .bare [] }

/-- The tokens once a token without quotes is over. -/
def closed? (tokens : List Token) : List Char → Option (List Token)
  | [] => some tokens
  | letters => (bare? letters.reverse).map (· :: tokens)

/-- A quoted text holds no control characters except by escapes. -/
def step? (scan : Scan) (c : Char) : Option Scan :=
  match scan.part with
  | .bare letters =>
    if isSpace c then (closed? scan.tokens letters).map ({ tokens := ·, part := .bare [] })
    else if isMark c then (closed? scan.tokens letters).map ({ tokens := mark c :: ·, part := .bare [] })
    else if c = '"' then (closed? scan.tokens letters).map ({ tokens := ·, part := .quoted [] })
    else some { scan with part := .bare (c :: letters) }
  | .quoted codes =>
    if c = '"' then
      some { tokens := text ((characters? codes.reverse).map String.ofList) :: scan.tokens, part := .bare [] }
    else if c = '\\' then some { scan with part := .escape codes }
    else if c.toNat < 0x20 then none
    else some { scan with part := .quoted (c.toNat :: codes) }
  | .escape codes =>
    if c = 'u' then some { scan with part := .numbered codes 0 0 }
    else (escaped? c).map fun e => { scan with part := .quoted (e.toNat :: codes) }
  | .numbered codes count value =>
    (Numeral.Radix.hexadecimal.digit? c).map fun digit =>
      let value := 16 * value + digit
      { scan with part := if count = 3 then .quoted (value :: codes) else .numbered codes (count + 1) value }

/-- The tokens in order, unless a text is still open. -/
def finish? (scan : Scan) : Option (List Token) :=
  match scan.part with
  | .bare letters => (closed? scan.tokens letters).map List.reverse
  | _ => none

end Scan

def scan? (text : List Char) : Option (List Token) := do
  (← text.foldlM Scan.step? Scan.start).finish?

end Token

end Arm32.Document
