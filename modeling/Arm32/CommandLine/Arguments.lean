import Arm32.CommandLine.Request

/-! Requests from arguments. Arguments are read from left to right and the first one at fault decides, so that
asking for help is answered only if nothing before it is wrong. A value given as an argument of its own is
checked when the next argument is taken up. -/

namespace Arm32.CommandLine

/-- Why arguments make no request. -/
inductive Stop where
  | usage
  /-- Help or the version was asked for. -/
  | information
  deriving DecidableEq, Repr

/-- What an option without a value asks for. -/
inductive Action where
  | raise (flag : Flag)
  | inform
  deriving DecidableEq, Repr

inductive OptionKind where
  | action (action : Action)
  | field (field : Field)
  deriving DecidableEq, Repr

namespace Level

/-- The options of a level, by name. -/
def option? (level : Level) (name : String) : Option OptionKind :=
  match level, name with
  | _, "help" => some (.action .inform)
  | _, "trace" => some (.action (.raise .trace))
  | _, "log-file" => some (.field .logFile)
  | .program, "version" => some (.action .inform)
  | .listing, "hex" => some (.action (.raise .hex))
  | .listing, "comments" => some (.field .comments)
  | .listing, "big-endian" | .run, "big-endian" => some (.action (.raise .bigEndian))
  | .listing, "arm8" | .run, "arm8" => some (.action (.raise .arm8))
  | .run, "load-address" => some (.field .loadAddress)
  | .run, "entry" => some (.field .entry)
  | .run, "memory-size" => some (.field .memorySize)
  | .run, "max-instructions" => some (.field .maxInstructions)
  | _, _ => none

/-- The options of one letter. -/
def letter? (level : Level) (letter : Char) : Option Action :=
  match level, letter with
  | _, 'h' => some .inform
  | _, 't' => some (.raise .trace)
  | .program, 'V' => some .inform
  | _, _ => none

/-- The commands by name. -/
def ofName? : String → Option Level
  | "disasm" => some listing
  | "run" => some run
  | _ => none

end Level

/-- An argument by its form alone. -/
inductive Argument where
  /-- All that follows is taken as it is. -/
  | endOfOptions
  | long (name : String) (value : Option String)
  | short (letters : List Char)
  | plain (text : String)
  deriving DecidableEq, Repr

/-- A single dash is plain. -/
def Argument.ofText (text : String) : Argument :=
  match text.toList with
  | ['-', '-'] => endOfOptions
  | '-' :: '-' :: option =>
    let name := String.ofList (option.takeWhile (· != '='))
    match option.dropWhile (· != '=') with
    | [] => long name none
    | _ :: value => long name (some (String.ofList value))
  | '-' :: c :: letters => short (c :: letters)
  | _ => plain text

/-- What has been given, and a value that is still to be checked. -/
structure Reading where
  given : Given
  unchecked : Option (Field × String)
  deriving DecidableEq, Repr

namespace Reading

def start : Reading := { given := {}, unchecked := none }

def ofOption {α : Type} (value : Option α) : Except Stop α :=
  match value with
  | some value => .ok value
  | none => .error .usage

def settle (reading : Reading) : Except Stop Given :=
  match reading.unchecked with
  | none => .ok reading.given
  | some (field, text) => ofOption (reading.given.assign? field text)

def act (reading : Reading) (action : Action) : Except Stop Reading := do
  let given ← reading.settle
  match action with
  | .inform => throw .information
  | .raise flag => return { given := ← ofOption (given.raise? flag), unchecked := none }

/-- A value that is part of its option is checked at once. -/
def attach (reading : Reading) (field : Field) (text : String) : Except Stop Reading := do
  let given ← reading.settle
  return { given := ← ofOption (given.assign? field text), unchecked := none }

/-- A value that is an argument of its own. -/
def await (reading : Reading) (field : Field) (text : String) : Except Stop Reading := do
  return { given := ← reading.settle, unchecked := some (field, text) }

/-- Several letters behind one dash. -/
def letters (level : Level) : Reading → List Char → Except Stop Reading
  | reading, [] => .ok reading
  | reading, letter :: rest => do
    let action ← ofOption (level.letter? letter)
    letters level (← reading.act action) rest

/-- An argument that is not the name of an option. Only commands take one. -/
def plain (level : Level) (reading : Reading) (text : String) : Except Stop Reading :=
  match level with
  | .program => .error .usage
  | _ => reading.await .file text

/-- Arguments after the end of the options. -/
def verbatim (level : Level) : Reading → List String → Except Stop Reading
  | reading, [] => .ok reading
  | reading, text :: rest => do verbatim level (← reading.plain level text) rest

/-- Whether an argument may be the value of the option before it. -/
def isValue (text : String) : Bool := Argument.ofText text == .plain text

/-- The arguments of a level. At that of the program the name of a command ends them; the command and the
arguments after it are handed on. -/
def arguments (level : Level) (reading : Reading) :
    List String → Except Stop (Reading × Option (Level × List String))
  | [] => .ok (reading, none)
  | text :: rest =>
    match Argument.ofText text with
    | .endOfOptions => do return (← reading.verbatim level rest, none)
    | .short letters => do arguments level (← reading.letters level letters) rest
    | .long name value =>
      match level.option? name, value with
      | some (.action action), none => do arguments level (← reading.act action) rest
      | some (.field field), some value => do arguments level (← reading.attach field value) rest
      | some (.field field), none =>
        match rest with
        | [] => .error .usage
        | value :: rest =>
          if isValue value then do arguments level (← reading.await field value) rest else .error .usage
      | _, _ => .error .usage
    | .plain text =>
      match level, Level.ofName? text with
      | .program, some command => .ok (reading, some (command, rest))
      | .program, none => .error (if text = "help" then helpOn rest else .usage)
      | level, _ => do arguments level (← reading.plain level text) rest
where
  /-- Help on the program, or on one of the names that it knows. -/
  helpOn : List String → Stop
  | [] => .information
  | [name] => if name = "help" ∨ (Level.ofName? name).isSome then .information else .usage
  | _ => .usage

end Reading

namespace Request

/-- Reads all arguments. -/
def ofArguments (arguments : List String) : Except Stop Request := do
  let (before, command) ← Reading.start.arguments .program arguments
  let before ← before.settle
  let (level, rest) ← Reading.ofOption command
  let (after, _) ← Reading.start.arguments level rest
  Reading.ofOption (ofGiven? level before (← after.settle))

end Request

end Arm32.CommandLine
