import Arm32.Instruction.Basic
import Arm32.Memory.Image

/-! Choices made before a program runs or is listed, and the names they go by. -/

namespace Arm32

inductive Processor where
  | arm7 | arm8
  deriving DecidableEq, Repr

namespace Processor

def name : Processor → String
  | arm7 => "arm7"
  | arm8 => "arm8"

/-- How far ahead of the instruction a store of the program counter reads. -/
def storePrefetch : Processor → Word
  | arm7 => 12
  | arm8 => 8

/-- Letter case is free, for ASCII letters. -/
def ofName (text : String) : Except SetupError Processor :=
  match text.toLower with
  | "arm7" => .ok arm7
  | "arm8" => .ok arm8
  | _ => .error (.unknownProcessor text)

end Processor

namespace ByteOrder

def name : ByteOrder → String
  | little => "little"
  | big => "big"

/-- The name as a log shows it. -/
def label : ByteOrder → String
  | little => "Little"
  | big => "Big"

/-- Letter case is free, for ASCII letters. -/
def ofName (text : String) : Except SetupError ByteOrder :=
  match text.toLower with
  | "little" | "le" => .ok little
  | "big" | "be" => .ok big
  | _ => .error (.unknownByteOrder text)

end ByteOrder

structure EmulatorSettings where
  processor : Processor
  byteOrder : ByteOrder
  /-- Disassemble every instruction that is fetched. -/
  trace : Bool
  deriving DecidableEq, Repr

structure ListingSettings where
  processor : Processor
  byteOrder : ByteOrder
  hexImmediates : Bool
  deriving DecidableEq, Repr

/-- Traces print decimal immediates. -/
def EmulatorSettings.forTrace (settings : EmulatorSettings) : ListingSettings :=
  { processor := settings.processor, byteOrder := settings.byteOrder, hexImmediates := false }

end Arm32
