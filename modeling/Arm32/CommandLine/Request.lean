import Arm32.Numeral
import Arm32.Settings

/-! What the command line can be asked for, and how much of it has been given so far. -/

namespace Arm32.CommandLine

/-- The program alone, or one of its commands. Each takes options of its own. -/
inductive Level where
  | program | listing | run
  deriving DecidableEq, Repr

/-- Options that are given or not. -/
inductive Flag where
  | trace | hex | bigEndian | arm8
  deriving DecidableEq, Repr

/-- What is given with a value. The file has no name; it is known by standing alone. -/
inductive Field where
  | file | logFile | comments | loadAddress | entry | memorySize | maxInstructions
  deriving DecidableEq, Repr

/-- What one level has been given. -/
structure Given where
  trace : Bool := false
  hex : Bool := false
  bigEndian : Bool := false
  arm8 : Bool := false
  file : Option String := none
  logFile : Option String := none
  comments : Option String := none
  loadAddress : Option Word := none
  entry : Option Word := none
  memorySize : Option Word := none
  maxInstructions : Option Nat := none
  deriving DecidableEq, Repr

namespace Given

/-- A flag is given once at most. -/
def raise? (given : Given) : Flag → Option Given
  | .trace => if given.trace then none else some { given with trace := true }
  | .hex => if given.hex then none else some { given with hex := true }
  | .bigEndian => if given.bigEndian then none else some { given with bigEndian := true }
  | .arm8 => if given.arm8 then none else some { given with arm8 := true }

/-- A value where none was given before. -/
def fresh? {α : Type} (before : Option α) (value : Option α) : Option (Option α) :=
  if before.isSome then none else value.map some

/-- A path is any text but the empty one. -/
def path? (text : String) : Option String := if text.isEmpty then none else some text

def word? (text : String) : Option Word := (Numeral.readWord text.toList).toOption

def count? (text : String) : Option Nat := (Numeral.readCount text.toList).toOption

/-- A field is given once at most, and its value must be well formed. -/
def assign? (given : Given) (field : Field) (text : String) : Option Given :=
  match field with
  | .file => (fresh? given.file (path? text)).map ({ given with file := · })
  | .logFile => (fresh? given.logFile (path? text)).map ({ given with logFile := · })
  | .comments => (fresh? given.comments (path? text)).map ({ given with comments := · })
  | .loadAddress => (fresh? given.loadAddress (word? text)).map ({ given with loadAddress := · })
  | .entry => (fresh? given.entry (word? text)).map ({ given with entry := · })
  | .memorySize => (fresh? given.memorySize (word? text)).map ({ given with memorySize := · })
  | .maxInstructions => (fresh? given.maxInstructions (count? text)).map ({ given with maxInstructions := · })

def processor (given : Given) : Processor := if given.arm8 then .arm8 else .arm7

def byteOrder (given : Given) : ByteOrder := if given.bigEndian then .big else .little

end Given

inductive Command where
  /-- List a program, with comments from a file. -/
  | list (file : String) (comments : Option String) (settings : ListingSettings)
  /-- Execute a program from an entry point, for at most as many instructions as the budget allows. -/
  | run (file : String) (loadAddress entry memorySize : Word) (budget : Option Nat) (settings : EmulatorSettings)
  deriving DecidableEq, Repr

structure Request where
  logFile : Option String
  /-- Whether the log shows what is executed. -/
  trace : Bool
  command : Command
  deriving DecidableEq, Repr

namespace Request

def defaultLoadAddress : Word := 0x1000
def defaultMemorySize : Word := 0x10000

def command? (level : Level) (trace : Bool) (given : Given) : Option Command :=
  match level, given.file with
  | .listing, some file =>
    some (.list file given.comments
      { processor := given.processor, byteOrder := given.byteOrder, hexImmediates := given.hex })
  | .run, some file =>
    let loadAddress := given.loadAddress.getD defaultLoadAddress
    some (.run file loadAddress (given.entry.getD loadAddress) (given.memorySize.getD defaultMemorySize)
      given.maxInstructions { processor := given.processor, byteOrder := given.byteOrder, trace })
  | _, _ => none

/-- What was given before and after the name of the command. Tracing and the log file may be given in either
place; of two log files the later one is used. -/
def ofGiven? (level : Level) (before after : Given) : Option Request :=
  let trace := before.trace || after.trace
  (command? level trace after).map fun command =>
    { logFile := after.logFile <|> before.logFile, trace, command }

end Request

end Arm32.CommandLine
