import WatMachine.Machine.Execution

/-!
# Calls from outside

A program is called by function index or by export name.  Every call starts
from an empty stack and leaves an empty one behind, so that calls do not
disturb each other.
-/

namespace WatMachine

namespace Program

/-- Runs a step and takes all values off the stack, however it ends. -/
def collect (step : Execution Unit) : Execution (List Int32) :=
  fun machine =>
    match step machine with
    | none => none
    | some (result, machine) =>
        let (values, stack) := StackAction.drainValues machine.stack
        some (result.bind fun () => values, { machine with stack })

/-- Calls a function by index, and gives every value it leaves. -/
def invoke (program : Program) (fuel index : Nat) (arguments : List Int32) :
    Execution (List Int32) := do
  let callee ← program.callee index
  let expected := callee.frame.argumentCount
  if arguments.length = expected then
    set (Machine.mk (Stack.empty.pushValues arguments) 0)
    collect (Execution.call program fuel index)
  else
    throw (.arityMismatch expected arguments.length)

/-- Calls an exported function by name. -/
def invokeExport (program : Program) (fuel : Nat) (name : String)
    (arguments : List Int32) : Execution (List Int32) := do
  match program.export? name with
  | some found =>
      match found.kind with
      | .function => program.invoke fuel found.index arguments
      | _ => throw (.exportNotFunction name)
  | none => throw (.unknownExport name)

/-- Calls an exported function by name.  Where there is no such export, the
call gives no values instead of failing. -/
def callExtern (program : Program) (fuel : Nat) (name : String)
    (arguments : List Int32) : Execution (List Int32) :=
  tryCatch (program.invokeExport fuel name arguments) fun
    | .unknownExport _ => return []
    | error => throw error

end Program

end WatMachine
