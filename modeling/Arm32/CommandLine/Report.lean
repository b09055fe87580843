import Arm32.CommandLine.Request
import Arm32.CommentFile
import Arm32.Emulator
import Arm32.Text.Inert

/-! What a request leads to: the text it prints, the lines it logs and the code it exits with. Files are looked
up by path in the contents handed over. -/

namespace Arm32.CommandLine

/-- Why a file cannot be read or made. -/
inductive FileError where
  | missing | directory | notDirectory
  /-- A name with a character that no name may hold, the one numbered zero. -/
  | zeroInName
  | nameTooLong
  /-- The file is there, but is not text. -/
  | notText
  | other (text : String)
  deriving DecidableEq, Repr

def FileError.message : FileError → String
  | missing => "No such file or directory (os error 2)"
  | directory => "Is a directory (os error 21)"
  | notDirectory => "Not a directory (os error 20)"
  | zeroInName => "file name contained an unexpected NUL byte"
  | nameTooLong => "File name too long (os error 36)"
  | notText => "stream did not contain valid UTF-8"
  | other text => text

def logFileMessage (path : String) (error : FileError) : String :=
  s!"cannot create log file {path}: {error.message}"

/-- Why a request is given up before a program is listed or run. -/
inductive Failure where
  | unreadable (path : String) (error : FileError)
  /-- What is wrong with the contents of a file that holds a program. -/
  | program (path : String) (error : SetupError)
  | comments (path : String) (error : CommentFile.Error)
  /-- The program cannot be placed in memory. -/
  | placement (error : SetupError)
  deriving DecidableEq, Repr

def Failure.message : Failure → String
  | unreadable path error => s!"cannot read {path}: {error.message}"
  | program path error => s!"loading {path}: {error.message}"
  | comments path error => s!"parsing {path}: {error.message}"
  | placement error => error.message

inductive Severity where
  | debug | info | warn | error
  deriving DecidableEq, Repr

def Severity.name : Severity → String
  | debug => "DEBUG"
  | info => "INFO"
  | warn => "WARN"
  | error => "ERROR"

structure LogLine where
  severity : Severity
  message : String
  deriving DecidableEq, Repr

namespace LogLine

/-- A message may quote a path or a file, so it is made inert before it is written. -/
def text (line : LogLine) : String := line.severity.name ++ " " ++ Inert.encode line.message

def ofEvent (event : Event) : LogLine :=
  match event with
  | .traced .. => { severity := .debug, message := event.message }
  | .warned _ => { severity := .warn, message := event.message }

end LogLine

inductive Ending where
  | exited (code : Nat) (output : String)
  /-- The emulator met what it refuses. Nothing is printed then. -/
  | refused (refusal : Refusal)
  deriving DecidableEq, Repr

structure Report where
  log : List LogLine
  ending : Ending
  deriving DecidableEq, Repr

namespace Ending

def failureCode : Nat := 1
def budgetCode : Nat := 2
def refusalCode : Nat := 101

def code : Ending → Nat
  | exited code _ => code
  | refused _ => refusalCode

def output : Ending → String
  | exited _ output => output
  | refused _ => ""

end Ending

/-- The contents of files, by path. -/
abbrev Contents := String → Except FileError ByteArray

namespace Report

def ofFailure (failure : Failure) : Report :=
  { log := [{ severity := .error, message := failure.message }], ending := .exited Ending.failureCode "" }

/-- The bytes of a program, which are whole words. -/
def programBytes (contents : Contents) (path : String) : Except Failure (List Byte) := do
  let bytes ← (contents path).mapError (Failure.unreadable path)
  if bytes.size % 4 = 0 then return bytes.data.toList.map (·.toBitVec)
  else throw (.program path (.imageNotWordSized bytes.size))

def commentsIn (contents : Contents) (path : String) : Except Failure (List Comment) := do
  let bytes ← (contents path).mapError (Failure.unreadable path)
  match String.fromUTF8? bytes with
  | none => throw (.unreadable path .notText)
  | some text => (CommentFile.parse text).mapError (Failure.comments path)

/-- A listing starts at offset zero wherever the program is meant to be placed. -/
def listed (contents : Contents) (file : String) (comments : Option String) (settings : ListingSettings) :
    Except Failure Report := do
  let bytes ← programBytes contents file
  let image ← (Memory.Image.ofBytes 0 bytes settings.byteOrder).mapError Failure.placement
  match image.words with
  | .error (.setup error) => throw (.placement error)
  | .error (.access fault) => return { log := [], ending := .refused (.access fault) }
  | .ok words =>
    let comments ← match comments with
      | some path => commentsIn contents path
      | none => pure []
    return {
      log := [{ severity := .info, message := s!"disassembling {words.length} words from {file}" }]
      ending := .exited 0 (Listing.text settings words comments) }

/-- The stack grows down from the last whole word of memory. -/
def stackTop (memory : Memory.Image) : Word := BitVec.ofNat 32 (min (memory.limit / 4 * 4) 0xFFFFFFFC)

/-- An emulator about to run a program. The program returns to address zero, which ends the run. -/
def loaded (contents : Contents) (file : String) (loadAddress memorySize : Word) (settings : EmulatorSettings) :
    Except Failure Emulator := do
  let bytes ← programBytes contents file
  let memory ← (Memory.Image.ofBytesPadded loadAddress bytes memorySize.toNat settings.byteOrder).mapError
    Failure.placement
  let emulator := Emulator.ofImage settings memory
  return { emulator with machine := (emulator.machine.write Reg.sp (stackTop memory)).write Reg.lr 0 }

def budgetText : Option Nat → String
  | none => "None"
  | some budget => s!"Some({budget})"

def outcomeText (outcome : RunOutcome) : String := outcome.name ++ s!" \x7b executed: {outcome.executed} \x7d"

def registerLine (machine : Machine) (index : Nat) : String :=
  let number := toString index
  "r" ++ number ++ String.ofList (List.replicate (2 - number.length) ' ') ++ " = " ++
    Hex.word (machine.read (BitVec.ofNat 4 index)) ++ "\n"

def registersText (machine : Machine) (outcome : RunOutcome) : String :=
  String.join ((List.range 16).map (registerLine machine)) ++ "cpsr = " ++ Hex.word machine.status.bits ++ "\n" ++
    s!"executed {outcome.executed} instructions\n"

/-- The registers at the end are printed even if the budget ran out. -/
def ran (emulator : Emulator) (start : Word) (budget : Option Nat) : Report :=
  let settings := emulator.settings
  let opening := s!"run from {Hex.word start} ({settings.processor.name}, {settings.byteOrder.label} endian, " ++
    s!"budget {budgetText budget})"
  let log := { severity := .info, message := opening } :: (emulator.runEvents start budget).map LogLine.ofEvent
  match emulator.run start budget with
  | .error refusal => { log, ending := .refused refusal }
  | .ok (last, outcome) =>
    let log := log ++ [{ severity := .info, message := "run stopped: " ++ outcomeText outcome }]
    let output := registersText last.machine outcome
    match outcome with
    | .terminated _ => { log, ending := .exited 0 output }
    | .budgetExhausted _ =>
      let warning := { severity := .warn, message := "instruction budget exhausted before the program returned" }
      { log := log ++ [warning], ending := .exited Ending.budgetCode output }

def ofRequest (contents : Contents) (request : Request) : Report :=
  let report := match request.command with
    | .list file comments settings => listed contents file comments settings
    | .run file loadAddress entry memorySize budget settings =>
      (loaded contents file loadAddress memorySize settings).map (ran · entry budget)
  match report with
  | .ok report => report
  | .error failure => ofFailure failure

end Report

namespace Request

/-- The files that a request reads. -/
def paths (request : Request) : List String :=
  match request.command with
  | .list file comments _ => file :: comments.toList
  | .run file .. => [file]

end Request

end Arm32.CommandLine
