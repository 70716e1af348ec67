import WatMachine.Machine.Operation
import WatMachine.Machine.Program

/-!
# Execution

Executing a function walks over the tree of its instructions.  A call takes
its arguments off the caller's scope, runs the body above an activation and
puts the results back; blocks and loops run their bodies above a label.

Execution need not end, so it is given fuel: the number of steps that may be
nested or follow each other in one sequence.  Running out of fuel is no
outcome of the program, and more fuel never changes an outcome.
-/

namespace WatMachine

/-- The state of execution: the mixed stack and the number of active calls. -/
structure Machine where
  stack : Stack
  depth : Nat
  deriving Repr, DecidableEq

/-- An execution step: `none` if fuel runs out, otherwise a value or an error
together with the state that is left. -/
abbrev Execution (α : Type) := ExceptT RuntimeError (StateT Machine Option) α

namespace Machine

/-- The state before and after every call from outside. -/
def idle : Machine := ⟨.empty, 0⟩

end Machine

namespace Execution

variable {α : Type}

/-- The step that fuel does not reach. -/
def outOfFuel : Execution α :=
  fun _ => none

/-- An action on the stack as a step. -/
def onStack (action : StackAction α) : Execution α :=
  fun machine =>
    let (result, stack) := action machine.stack
    some (result, { machine with stack })

/-- Runs a step as part of one more active call, however it ends. -/
def asCall (step : Execution α) : Execution α :=
  fun machine =>
    match step { machine with depth := machine.depth + 1 } with
    | none => none
    | some (result, machine) => some (result, { machine with depth := machine.depth - 1 })

/-- Starts a call: pops the arguments and pushes the activation.  Gives the
function and the place of its activation. -/
def enter (program : Program) (index : Nat) :
    Execution (FunctionDefinition × Nat) := do
  if program.maxCallDepth ≤ (← get).depth then
    throw (.callStackOverflow program.maxCallDepth)
  else
    let function ← program.definition index
    let arguments ← onStack (StackAction.popValues function.frame.argumentCount)
    let base := (← get).stack.size
    onStack (StackAction.push (.activation (function.frame.withArguments arguments)))
    return (function, base)

/-- Ends a call: takes the results, drops the activation with all above it
and pushes the results. -/
def leave (base resultCount : Nat) : StackAction Unit := do
  let results ← StackAction.popValues resultCount
  StackAction.truncate base
  let _ ← StackAction.popActivation
  StackAction.pushValues results

/-- Ends a block: takes its label out from under the values of its scope. -/
def closeBlock : StackAction Unit := do
  let results ← StackAction.drainScope
  let _ ← StackAction.popLabel
  StackAction.pushValues results

mutual

/-- Calls a function with the arguments that stand on the stack. -/
def call (program : Program) : Nat → Nat → Execution Unit
  | 0, _ => outOfFuel
  | fuel + 1, index => do
      let (function, base) ← enter program index
      match ← asCall (sequence program fuel base function.body) with
      | .branch depth => throw (.invalidLabel depth)
      | .normal | .returned => onStack (leave base function.frame.resultCount)
  termination_by structural fuel => fuel

/-- Executes the instructions of a function body one after the other. -/
def sequence (program : Program) : Nat → Nat → List Instruction → Execution Ending
  | 0, _, _ => outOfFuel
  | _ + 1, _, [] => return .normal
  | fuel + 1, base, first :: rest => do
      match ← instruction program fuel base first with
      | .normal => sequence program fuel base rest
      | ending => return ending
  termination_by structural fuel => fuel

/-- Executes what is left of the body of a block or loop, under its label. -/
def labelled (program : Program) :
    Nat → Nat → BlockKind → List Instruction → List Instruction → Execution Ending
  | 0, _, _, _, _ => outOfFuel
  | _ + 1, _, _, _, [] => do
      onStack closeBlock
      return .normal
  | fuel + 1, base, kind, body, first :: rest => do
      match ← instruction program fuel base first with
      | .normal => labelled program fuel base kind body rest
      | .branch 0 =>
          match kind with
          | .block => return .normal
          | .loop =>
              match (← get).stack.topLabel? with
              | some label => labelled program fuel base kind body (body.drop label.resume)
              | none => throw (.corruptStack .loopLabelMissing)
      | .branch (depth + 1) => return .branch depth
      | .returned => return .returned
  termination_by structural fuel => fuel

/-- Executes one instruction of the call whose activation is at a place. -/
def instruction (program : Program) : Nat → Nat → Instruction → Execution Ending
  | 0, _, _ => outOfFuel
  | fuel + 1, base, .structured kind _ body _ => do
      onStack (StackAction.push (.label (.start kind)))
      labelled program fuel base kind body body
  | fuel + 1, base, .plain opcode operand _ =>
      if opcode = .call then do
        call program fuel (← onStack (Operation.indexOperand opcode operand))
        return .normal
      else
        onStack (Operation.perform base opcode operand)
  termination_by structural fuel => fuel

end

end Execution

end WatMachine
