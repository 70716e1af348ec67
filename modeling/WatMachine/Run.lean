import WatMachine.Grammar.Module
import WatMachine.Machine.Session

/-!
# Running a source text

The shortest way from a source text to the values of one call.
-/

namespace WatMachine

/-- Why a source text does not run to its end. -/
inductive RunError where
  | parse (error : ParseError)
  | runtime (error : RuntimeError)
  deriving Repr, DecidableEq

namespace RunError

/-- The message of a failed run. -/
def message : RunError → String
  | parse error => "parse error: " ++ error.message
  | runtime error => "runtime error: " ++ error.message

end RunError

/-- Reads a module and calls one of its exports.  Gives `none` if fuel runs
out. -/
def run (fuel maxCallDepth : Nat) (source name : String) (arguments : List Int32) :
    Option (Except RunError (List Int32)) :=
  match Module.parse source with
  | .error error => some (.error (.parse error))
  | .ok module =>
      let program := Program.ofModule module maxCallDepth
      match program.invokeExport fuel name arguments .idle with
      | none => none
      | some (.error error, _) => some (.error (.runtime error))
      | some (.ok values, _) => some (.ok values)

end WatMachine
