import WatMachine.CommandLine.Report

/-!
# The program

Reads the file that the command line names and prints the answer.
-/

namespace WatMachine

namespace CommandLine

/-- The fault that the system reports by a code and a text.  Some of its codes
have their sign changed. -/
def systemFault (code : UInt32) (text : String) : FileFault :=
  match code.toInt32.toInt.natAbs with
  | 2 => .notFound
  | 20 => .notDirectory
  | 21 => .isDirectory
  | 36 => .nameTooLong
  | code => .other (text ++ " (os error " ++ toString code ++ ")")

/-- The contents of a file. -/
def readContents (file : String) : IO (Except FileFault ByteArray) := do
  try
    return .ok (← IO.FS.readBinFile file)
  catch
    | .noFileOrDirectory _ code text => return .error (systemFault code text)
    | .inappropriateType _ code text => return .error (systemFault code text)
    | .invalidArgument _ code text => return .error (systemFault code text)
    | .permissionDenied _ code text => return .error (systemFault code text)
    | error => return .error (.other (toString error))

/-- Prints a report and gives its exit code. -/
def emit (report : Report) : IO UInt32 := do
  IO.print report.output
  IO.eprint report.errorOutput
  return report.exitCode.toUInt32

/-- The fuel of an execution, more than any machine can burn. -/
def ampleFuel : Nat := 0x1000000000000000

end CommandLine

end WatMachine

/-- Runs an export of a module in the text format. -/
def main (words : List String) : IO UInt32 := do
  match WatMachine.CommandLine.prepare words with
  | .error report => WatMachine.CommandLine.emit report
  | .ok options =>
      let contents ← WatMachine.CommandLine.readContents options.file
      match WatMachine.CommandLine.execute WatMachine.CommandLine.ampleFuel options contents with
      | some report => WatMachine.CommandLine.emit report
      | none =>
          IO.eprintln "error: execution did not end"
          return 1
