import Arm32.CommandLine.Arguments
import Arm32.CommandLine.Report

/-! The program: reads the files of a request, reports, and exits. -/

namespace Arm32.CommandLine

def usageText : String :=
  "usage: arm32 [-t] [--log-file PATH] disasm [--hex] [--comments PATH] [--big-endian] [--arm8] FILE\n" ++
    "       arm32 [-t] [--log-file PATH] run [--load-address N] [--entry N] [--memory-size N]\n" ++
    "                 [--max-instructions N] [--big-endian] [--arm8] FILE\n"

def FileError.ofSystem (error : IO.Error) : FileError :=
  match error with
  | .noFileOrDirectory .. => .missing
  | .inappropriateType _ 21 _ => .directory
  | .inappropriateType .. => .notDirectory
  | .invalidArgument _ 36 _ => .nameTooLong
  | .permissionDenied .. => .other "Permission denied (os error 13)"
  | error => .other (toString error)

/-- The contents of the files that a request names, read beforehand. -/
def readContents (paths : List String) : IO Contents := do
  let mut found : List (String × Except FileError ByteArray) := []
  for path in paths do
    let result ← (IO.FS.readBinFile path).toBaseIO
    found := (path, result.mapError FileError.ofSystem) :: found
  let files := found
  return fun path => (files.lookup path).getD (.error .missing)

/-- Where the log goes: the file of the request, emptied first, or the error output. -/
def openLog (request : Request) : IO (Except String IO.FS.Stream) := do
  match request.logFile with
  | none => return .ok (← IO.getStderr)
  | some path =>
    match ← (IO.FS.Handle.mk path .write).toBaseIO with
    | .ok handle => return .ok (.ofHandle handle)
    | .error error => return .error (logFileMessage path (FileError.ofSystem error))

def answer (request : Request) : IO UInt32 := do
  match ← openLog request with
  | .error message =>
    IO.eprintln message
    return 1
  | .ok log =>
    let report := Report.ofRequest (← readContents request.paths) request
    for line in report.log do
      log.putStrLn line.text
    log.flush
    IO.print report.ending.output
    if let .refused refusal := report.ending then
      IO.eprintln refusal.message
    return report.ending.code.toUInt32

end Arm32.CommandLine

def main (arguments : List String) : IO UInt32 :=
  match Arm32.CommandLine.Request.ofArguments arguments with
  | .ok request => Arm32.CommandLine.answer request
  | .error .information => do
    IO.print Arm32.CommandLine.usageText
    return 0
  | .error .usage => do
    IO.eprint Arm32.CommandLine.usageText
    return 2
