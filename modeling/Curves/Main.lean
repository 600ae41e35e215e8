import Curves.CommandLine.Run

/-!
# The program

Reads an invocation from the command line and runs it on the files of the system. The exit code is
one after a failure and two after misuse.
-/

open Curves.CommandLine

/-- What a refusal of the system means. -/
def refusal : IO.Error → StorageError
  | .noFileOrDirectory .. => .noFile
  | .inappropriateType _ 21 _ => .isADirectory
  | .inappropriateType _ 20 _ => .notADirectory
  | .invalidArgument _ 36 _ => .nameTooLong
  | .permissionDenied _ 13 _ => .other "Permission denied (os error 13)"
  | e => .other (toString e)

def systemStorage : Storage IO where
  read path := do
    try return .ok (← IO.FS.readBinFile path).toList
    catch e => return .error (refusal e)
  write path content := do
    try
      IO.FS.writeBinFile path ⟨content.toArray⟩
      return .ok ()
    catch e => return .error (refusal e)

def main (words : List String) : IO UInt32 := do
  match Invocation.ofWords words with
  | .error misuse =>
    IO.eprintln misuse.message
    return 2
  | .ok invocation =>
    let report ← invocation.run systemStorage
    let stdout ← IO.getStdout
    stdout.write ⟨report.output.toArray⟩
    stdout.flush
    for line in report.errorLines invocation.logLevel do IO.eprintln line
    return if report.succeeds then 0 else 1
