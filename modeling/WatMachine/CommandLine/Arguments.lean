import WatMachine.Machine.Program
import WatMachine.Token.Lexer

/-!
# Arguments of the command line

The words of a command line are read from left to right, and the first of
them that is wrong decides.  Flags may stand anywhere among the positional
words: a file, the export to call and the numbers to call it with.  Behind
`--` every word is positional.
-/

namespace WatMachine

namespace CommandLine

/-- What a command line asks to be run. -/
structure Options where
  file : String
  exportName : String
  arguments : List Int32
  maxCallDepth : Nat
  json : Bool
  tokens : Bool
  deriving Repr, DecidableEq

/-- What a command line asks for. -/
inductive Request where
  | run (options : Options)
  | version
  | help
  deriving Repr, DecidableEq

/-- Why a command line asks for nothing. -/
inductive UsageError where
  | unknownFlag (word : String)
  | repeatedFlag (name : String)
  | unwantedValue (name : String)
  | missingValue (name : String)
  | invalidValue (word : String)
  | missingFile
  deriving Repr, DecidableEq

/-- What has been read of a command line. -/
structure Progress where
  file : Option String
  exportName : Option String
  arguments : List Int32
  maxCallDepth : Option Nat
  json : Bool
  tokens : Bool
  deriving Repr, DecidableEq

namespace UsageError

/-- The message of a wrong command line. -/
def message : UsageError → String
  | unknownFlag word => "unexpected argument '" ++ word ++ "'"
  | repeatedFlag name => "the argument '--" ++ name ++ "' cannot be used multiple times"
  | unwantedValue name => "the argument '--" ++ name ++ "' takes no value"
  | missingValue name => "the argument '--" ++ name ++ "' requires a value"
  | invalidValue word => "invalid value '" ++ word ++ "'"
  | missingFile => "the argument '<FILE>' was not provided"

end UsageError

/-- A number of decimal digits, of which there is at least one. -/
def decimal? (digits : List Char) : Option Nat :=
  if !digits.isEmpty && digits.all Char.isDigit then some (Lexeme.digitsValue digits)
  else none

/-- A number without a sign that fits in 64 bits.  A `+` may precede it. -/
def unsigned? (word : String) : Option Nat :=
  let digits := match word.toList with
    | '+' :: digits => digits
    | digits => digits
  (decimal? digits).filter fun value => value < 0x10000000000000000

/-- Whether a number fits in 32 bits with a sign. -/
def fitsSigned32 (value : Int) : Bool :=
  decide (-0x80000000 ≤ value) && decide (value < 0x80000000)

/-- A number that fits in 32 bits with a sign.  A `+` or `-` may precede
it. -/
def signed? (word : String) : Option Int32 := do
  let (sign, digits) := Lexeme.splitSign word.toList
  let magnitude ← decimal? digits
  let value : Int := if sign = ['-'] then -magnitude else magnitude
  if fitsSigned32 value then some (Int32.ofInt value) else none

namespace Progress

/-- Nothing read. -/
def start : Progress := ⟨none, none, [], none, false, false⟩

/-- Whether the next positional word is a number to call the export with. -/
def expectsNumber (progress : Progress) : Bool :=
  progress.file.isSome && progress.exportName.isSome

/-- Takes a positional word. -/
def takePositional (progress : Progress) (word : String) : Except UsageError Progress :=
  match progress.file, progress.exportName with
  | none, _ =>
      if word.isEmpty then .error (.invalidValue word)
      else .ok { progress with file := some word }
  | some _, none => .ok { progress with exportName := some word }
  | some _, some _ =>
      match signed? word with
      | some number => .ok { progress with arguments := progress.arguments ++ [number] }
      | none => .error (.invalidValue word)

/-- Takes the limit on active calls. -/
def takeLimit (progress : Progress) (word : String) : Except UsageError Progress :=
  match progress.maxCallDepth, unsigned? word with
  | none, some value => .ok { progress with maxCallDepth := some value }
  | none, none => .error (.invalidValue word)
  | some _, _ => .error (.repeatedFlag "max-call-depth")

/-- Takes the flag that asks for results in JSON. -/
def takeJson (progress : Progress) : Except UsageError Progress :=
  if progress.json then .error (.repeatedFlag "json")
  else .ok { progress with json := true }

/-- Takes the flag that asks for tokens. -/
def takeTokens (progress : Progress) : Except UsageError Progress :=
  if progress.tokens then .error (.repeatedFlag "tokens")
  else .ok { progress with tokens := true }

/-- The request of a command line that has been read to its end. -/
def finish (progress : Progress) : Except UsageError Request :=
  match progress.file with
  | none => .error .missingFile
  | some file =>
      .ok (.run {
        file
        exportName := progress.exportName.getD "main"
        arguments := progress.arguments
        maxCallDepth := progress.maxCallDepth.getD Program.defaultMaxCallDepth
        json := progress.json
        tokens := progress.tokens })

end Progress

/-- What a word of the command line is. -/
inductive Word where
  /-- The mark behind which every word is positional. -/
  | separator
  /-- A flag by its name, with the value written behind `=`. -/
  | long (name : String) (value : Option String)
  /-- Flags by their letters. -/
  | short (letters : List Char)
  | plain
  deriving Repr, DecidableEq

namespace Word

/-- The part of a flag before the first `=` and the part behind it. -/
def splitValue (characters : List Char) : String × Option String :=
  let name := String.ofList (characters.takeWhile (· != '='))
  match characters.dropWhile (· != '=') with
  | [] => (name, none)
  | _ :: value => (name, some (String.ofList value))

/-- What a word is by its first characters.  A lone dash is plain. -/
def classify (word : String) : Word :=
  match word.toList with
  | ['-', '-'] => separator
  | '-' :: '-' :: rest =>
      let (name, value) := splitValue rest
      long name value
  | '-' :: letter :: letters => short (letter :: letters)
  | _ => plain

end Word

/-- Takes words behind the separator. -/
def readPositional (progress : Progress) (words : List String) : Except UsageError Request := do
  (← words.foldlM Progress.takePositional progress).finish

/-- Reads a command line from the words that are left of it. -/
def read (progress : Progress) : List String → Except UsageError Request
  | [] => progress.finish
  | word :: words =>
      match Word.classify word with
      | .separator => readPositional progress words
      | .plain => do read (← progress.takePositional word) words
      | .short letters =>
          if progress.expectsNumber && letters.all Char.isDigit then do
            read (← progress.takePositional word) words
          else match letters with
            | 'V' :: _ => .ok .version
            | 'h' :: _ => .ok .help
            | _ => .error (.unknownFlag word)
      | .long "json" none => do read (← progress.takeJson) words
      | .long "tokens" none => do read (← progress.takeTokens) words
      | .long "version" none => .ok .version
      | .long "help" none => .ok .help
      | .long "max-call-depth" (some value) => do read (← progress.takeLimit value) words
      | .long "max-call-depth" none =>
          match words with
          | value :: words =>
              match Word.classify value with
              | .plain => do read (← progress.takeLimit value) words
              | _ => .error (.missingValue "max-call-depth")
          | [] => .error (.missingValue "max-call-depth")
      | .long name value =>
          if value.isSome && ["json", "tokens", "version", "help"].contains name then
            .error (.unwantedValue name)
          else
            .error (.unknownFlag word)

/-- The request that the words of a command line make. -/
def request (words : List String) : Except UsageError Request :=
  read .start words

end CommandLine

end WatMachine
