import Arm32.Text.Hex

/-! Text that a terminal shows and does not obey. The control characters that can begin or carry a command to
a terminal are spelled by their code points. Every other character stays, tabs and line ends among them. -/

namespace Arm32.Inert

/-- Bell, backspace, form feed, escape and delete. -/
def controls : List Char := ['\x07', '\x08', '\x0c', '\x1b', '\x7f']

/-- The control characters above ASCII, each of which some terminals take for a whole command. -/
def isHighControl (c : Char) : Bool := 0x80 ≤ c.toNat && c.toNat ≤ 0x9F

def spelled (c : Char) : String :=
  if controls.contains c then "\\x" ++ Hex.padded 2 c.toNat
  else if isHighControl c then "\\u\x7b" ++ Hex.padded 2 c.toNat ++ "\x7d"
  else c.toString

def encode (text : String) : String := String.join (text.toList.map spelled)

end Arm32.Inert
