import Arm32.Document.Nesting
import Arm32.Settings

/-! Settings from documents. Every setting must be there, and names are spelled as they are printed. -/

namespace Arm32

def Processor.ofDocument? (document : Document) : Option Processor := do
  let name ← document.plain?
  [arm7, arm8].find? (·.name == name)

def ByteOrder.ofDocument? (document : Document) : Option ByteOrder := do
  let name ← document.plain?
  [little, big].find? (·.name == name)

def Document.flag? : Document → Option Bool
  | .flag value => some value
  | _ => none

def EmulatorSettings.ofDocument? (document : Document) : Option EmulatorSettings := do
  match ← document.parts? ["processor", "endianness", "trace"] with
  | [processor, order, trace] =>
    return { processor := ← Processor.ofDocument? processor, byteOrder := ← ByteOrder.ofDocument? order,
             trace := ← trace.flag? }
  | _ => none

def ListingSettings.ofDocument? (document : Document) : Option ListingSettings := do
  match ← document.parts? ["processor", "endianness", "hex_immediates"] with
  | [processor, order, hex] =>
    return { processor := ← Processor.ofDocument? processor, byteOrder := ← ByteOrder.ofDocument? order,
             hexImmediates := ← hex.flag? }
  | _ => none

end Arm32
