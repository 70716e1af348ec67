import WatMachine.CommandLine.Arguments
import WatMachine.CommandLine.Directory
import WatMachine.Run
import WatMachine.Token.Listing

/-!
# Answers of the command line

A request is answered by what is printed and by an exit code: 0 if all went
well, 1 if the module could not be read or run, 2 if the command line was
wrong.  A failure names what was attempted and then its cause.
-/

namespace WatMachine

namespace CommandLine

/-- What the program prints, and its exit code. -/
structure Report where
  exitCode : Nat
  output : String
  errorOutput : String
  deriving Repr, DecidableEq

/-- A text whose lines from the second on are moved in by four blanks. -/
def indented (text : String) : String :=
  String.join (text.toList.map fun c => if c = '\n' then "\n    " else c.toString)

namespace Report

/-- All went well. -/
def success (output : String) : Report := ⟨0, output ++ "\n", ""⟩

/-- Something failed, for a cause. -/
def failure (attempt cause : String) : Report :=
  ⟨1, "", "Error: failed to " ++ attempt ++ "\n\nCaused by:\n    " ++ indented cause ++ "\n"⟩

/-- The command line was wrong. -/
def usage (error : UsageError) : Report :=
  ⟨2, "", "error: " ++ error.message ++ "\n"⟩

/-- The name and version of the program. -/
def version : Report := success "watrun 0.0.1"

/-- How to call the program. -/
def help : Report :=
  success "Usage: watrun [OPTIONS] <FILE> [EXPORT] [ARGS]..."

end Report

/-- The text of a file, or the message of what is wrong with it. -/
def decode (contents : Except FileFault ByteArray) : Except String String :=
  match contents with
  | .error fault => .error fault.message
  | .ok bytes =>
      match String.fromUTF8? bytes with
      | some source => .ok source
      | none => .error "stream did not contain valid UTF-8"

/-- The values of a call as they are printed. -/
def showValues (json : Bool) (values : List Int32) : String :=
  if json then
    (JsonValue.list (values.map fun value => .number value.toInt)).compact
  else
    " ".intercalate (values.map fun value => toString value.toInt)

/-- Lists the tokens of a source. -/
def listTokens (options : Options) (source : String) : Report :=
  match tokenise source with
  | .ok tokens => .success (Token.listing tokens)
  | .error error => .failure ("lex " ++ options.file) error.message

/-- Reads a module and calls its export. -/
def callExport (fuel : Nat) (options : Options) (source : String) : Option Report :=
  match Module.parse source with
  | .error error => some (.failure ("parse " ++ options.file) error.message)
  | .ok module =>
      let program := Program.ofModule module options.maxCallDepth
      match program.invokeExport fuel options.exportName options.arguments .idle with
      | none => none
      | some (.ok values, _) => some (.success (showValues options.json values))
      | some (.error error, _) =>
          some (.failure ("execute " ++ options.exportName) error.message)

/-- Carries out what the options ask for with the contents of their file.
Gives `none` if fuel runs out. -/
def execute (fuel : Nat) (options : Options) (contents : Except FileFault ByteArray) :
    Option Report :=
  match decode contents with
  | .error cause => some (.failure ("read input file " ++ options.file) cause)
  | .ok source =>
      if options.tokens then some (listTokens options source)
      else callExport fuel options source

/-- The file that a command line asks to be read, or the report that answers
it without one. -/
def prepare (words : List String) : Except Report Options :=
  match request words with
  | .error error => .error (.usage error)
  | .ok .version => .error .version
  | .ok .help => .error .help
  | .ok (.run options) => .ok options

/-- The report that answers a command line in a directory.  Gives `none` if
fuel runs out. -/
def answer (fuel : Nat) (directory : Directory) (words : List String) : Option Report :=
  match prepare words with
  | .error report => some report
  | .ok options => execute fuel options (directory.contents options.file)

end CommandLine

end WatMachine
