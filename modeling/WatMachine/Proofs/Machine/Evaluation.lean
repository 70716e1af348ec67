import WatMachine.Machine.Operation
import WatMachine.Machine.Program

/-!
# Evaluation without markers

A second account of what programs do, by recursion over their instructions.
It knows neither labels nor activations: a call has its frame and the values
of its innermost scope, and whatever a block interrupts is held back until
the block ends.  A branch travels outwards as the way in which instructions
end, together with the values that it carries, and under `nesting` enclosing
blocks it goes to one of these or is a return.

Evaluation is given fuel like execution, and spends it on every instruction,
call and restart of a loop.
-/

namespace WatMachine

/-- What a call works on: its frame, and the values of its innermost scope,
top first. -/
structure Workspace where
  frame : Frame
  values : List Int32
  deriving Repr, DecidableEq

/-- How instructions end that stand inside `nesting` blocks of a function. -/
inductive Completion (nesting : Nat) where
  | normal (workspace : Workspace)
  /-- A branch to an enclosing block, with the values it carries there. -/
  | branch (depth : Fin nesting) (workspace : Workspace)
  | returned (results : List Int32)
  deriving Repr, DecidableEq

/-- A step of evaluation: `none` if fuel runs out, otherwise a value or an
error. -/
abbrev Evaluation (α : Type) := ExceptT RuntimeError Option α

namespace Completion

variable {nesting : Nat}

/-- Ends a block that interrupted a scope.  What falls through or branches to
the end of the block comes to stand on the values of that scope. -/
def close (outer : List Int32) : Completion (nesting + 1) → Completion nesting
  | normal workspace => normal { workspace with values := workspace.values ++ outer }
  | branch ⟨0, _⟩ workspace => normal { workspace with values := workspace.values ++ outer }
  | branch ⟨depth + 1, inside⟩ workspace =>
      branch ⟨depth, Nat.lt_of_succ_lt_succ inside⟩ workspace
  | returned results => returned results

end Completion

namespace Workspace

def push (workspace : Workspace) (number : Int32) : Workspace :=
  { workspace with values := number :: workspace.values }

def pop : Workspace → Except RuntimeError (Int32 × Workspace)
  | ⟨frame, number :: values⟩ => .ok (number, ⟨frame, values⟩)
  | ⟨_, []⟩ => .error .stackUnderflow

def store (workspace : Workspace) (index : Nat) (number : Int32) :
    Except RuntimeError Workspace :=
  match workspace.frame.set? index number with
  | some frame => .ok { workspace with frame }
  | none => .error (.localOutOfBounds index)

/-- Separates the topmost values from those below them. -/
def split (count : Nat) (values : List Int32) :
    Except RuntimeError (List Int32 × List Int32) :=
  if values.length < count then .error (.arityMismatch count values.length)
  else .ok (values.take count, values.drop count)

/-- Returns from the call with as many of the topmost values as it has
results. -/
def giveBack (workspace : Workspace) {nesting : Nat} :
    Except RuntimeError (Completion nesting) := do
  let (results, _) ← split workspace.frame.resultCount workspace.values
  return .returned results

/-- Branches to an enclosing block.  A depth beyond them returns from the
call. -/
def branch (workspace : Workspace) {nesting : Nat} (depth : Nat) :
    Except RuntimeError (Completion nesting) :=
  if inside : depth < nesting then .ok (.branch ⟨depth, inside⟩ workspace)
  else workspace.giveBack

def indexOperand (opcode : Keyword) : Option Operand → Except RuntimeError Nat
  | some (.index value) => .ok value
  | _ => .error (.missingOperand opcode)

/-- The number that an instruction has as its operand, cut to 32 bits. -/
def literalOperand (opcode : Keyword) : Option Operand → Except RuntimeError Int32
  | some (.literal value) => .ok (Int32.ofInt value)
  | _ => .error (.missingOperand opcode)

/-- Evaluates an instruction other than a call, a block or a loop. -/
def perform (workspace : Workspace) {nesting : Nat} (opcode : Keyword)
    (operand : Option Operand) : Except RuntimeError (Completion nesting) :=
  match opcode with
  | .localGet => do
      let index ← indexOperand opcode operand
      match workspace.frame.get? index with
      | some number => return .normal (workspace.push number)
      | none => throw (.localOutOfBounds index)
  | .localSet => do
      let index ← indexOperand opcode operand
      let (number, below) ← workspace.pop
      return .normal (← below.store index number)
  | .localTee => do
      let index ← indexOperand opcode operand
      let (number, _) ← workspace.pop
      return .normal (← workspace.store index number)
  | .i32Const => do
      return .normal (workspace.push (← literalOperand opcode operand))
  | .i32Eqz => do
      let (number, below) ← workspace.pop
      return .normal (below.push (Operation.truth (number == 0)))
  | .drop => do
      let (_, below) ← workspace.pop
      return .normal below
  | .nop => return .normal workspace
  | .br => do
      workspace.branch (← indexOperand opcode operand)
  | .brIf => do
      let depth ← indexOperand opcode operand
      let (condition, below) ← workspace.pop
      if condition = 0 then return .normal below
      else below.branch depth
  | .functionReturn => workspace.giveBack
  | other =>
      match Operation.binary? other with
      | some operation => do
          let (second, below) ← workspace.pop
          let (first, below) ← below.pop
          return .normal (below.push (operation first second))
      | none => throw (.unimplementedInstruction other)

end Workspace

namespace Evaluation

variable {α β : Type}

def outOfFuel : Evaluation α :=
  ExceptT.mk none

/-- Starts a call from a scope with the given values: the function, its frame
with the arguments stored, and the values that stay in the scope. -/
def enter (program : Program) (depth index : Nat) (values : List Int32) :
    Except RuntimeError (FunctionDefinition × Frame × List Int32) := do
  if program.maxCallDepth ≤ depth then
    throw (.callStackOverflow program.maxCallDepth)
  else
    let function ← program.definition index
    let (arguments, below) ← Workspace.split function.frame.argumentCount values
    return (function, function.frame.withArguments arguments.reverse, below)

/-- Ends a call: the values of the caller's scope with the results on top. -/
def leave (resultCount : Nat) (below : List Int32) :
    Completion 0 → Except RuntimeError (List Int32)
  | .normal workspace => do
      let (results, _) ← Workspace.split resultCount workspace.values
      return results ++ below
  | .returned results => return results ++ below

mutual

/-- Calls a function from a scope with the given values while `depth` calls
are active, and gives the values of that scope afterwards. -/
def call (program : Program) : Nat → Nat → Nat → List Int32 → Evaluation (List Int32)
  | 0, _, _, _ => outOfFuel
  | fuel + 1, depth, index, values => do
      let (function, frame, below) ← enter program depth index values
      let completion ← sequence program fuel (depth + 1) 0 function.body ⟨frame, []⟩
      leave function.frame.resultCount below completion
  termination_by structural fuel => fuel

/-- Evaluates instructions one after the other. -/
def sequence (program : Program) :
    Nat → Nat → (nesting : Nat) → List Instruction → Workspace → Evaluation (Completion nesting)
  | 0, _, _, _, _ => outOfFuel
  | _ + 1, _, _, [], workspace => return .normal workspace
  | fuel + 1, depth, nesting, first :: rest, workspace => do
      match ← instruction program fuel depth nesting first workspace with
      | .normal workspace => sequence program fuel depth nesting rest workspace
      | completion => return completion
  termination_by structural fuel => fuel

/-- Evaluates one instruction.  A branch to the start of a loop evaluates the
loop again with the variables as they are. -/
def instruction (program : Program) :
    Nat → Nat → (nesting : Nat) → Instruction → Workspace → Evaluation (Completion nesting)
  | 0, _, _, _, _ => outOfFuel
  | fuel + 1, depth, nesting, .structured kind label body span, workspace => do
      match kind, ← sequence program fuel depth (nesting + 1) body ⟨workspace.frame, []⟩ with
      | .loop, .branch ⟨0, _⟩ inner =>
          instruction program fuel depth nesting (.structured .loop label body span)
            { workspace with frame := inner.frame }
      | _, completion => return completion.close workspace.values
  | fuel + 1, depth, _, .plain opcode operand _, workspace =>
      if opcode = .call then do
        let index ← Workspace.indexOperand opcode operand
        let values ← call program fuel depth index workspace.values
        return .normal { workspace with values }
      else
        workspace.perform opcode operand
  termination_by structural fuel => fuel

end

/-- Calls a function by index with the given arguments, and gives every value
it leaves. -/
def invoke (program : Program) (fuel index : Nat) (arguments : List Int32) :
    Evaluation (List Int32) := do
  let callee ← program.callee index
  let expected := callee.frame.argumentCount
  if arguments.length = expected then
    return (← call program fuel 0 index arguments.reverse).reverse
  else
    throw (.arityMismatch expected arguments.length)

@[simp]
theorem run_outOfFuel : (outOfFuel : Evaluation α).run = none :=
  rfl

theorem bind_eq_some {step : Evaluation α} {next : α → Evaluation β}
    {outcome : Except RuntimeError β} :
    (step >>= next).run = some outcome ↔
      (∃ error, step.run = some (.error error) ∧ outcome = .error error) ∨
      ∃ value, step.run = some (.ok value) ∧ (next value).run = some outcome := by
  rw [ExceptT.run_bind]
  rcases step.run with _ | error | value
  · simp
  · simp [eq_comm]
  · simp

variable (program : Program)

/-- What a block or loop makes of the ending of its body. -/
def settle (fuel depth nesting : Nat) (kind : BlockKind) (label : Option String)
    (body : List Instruction) (span : Source.Span) (outer : List Int32)
    (completion : Completion (nesting + 1)) : Evaluation (Completion nesting) :=
  match kind, completion with
  | .loop, .branch ⟨0, _⟩ inner =>
      instruction program fuel depth nesting (.structured .loop label body span)
        ⟨inner.frame, outer⟩
  | _, completion => return completion.close outer

/-- A loop that its body branches to is evaluated again, and every other block
ends with its body. -/
theorem restarts_or_closes (fuel depth nesting : Nat) (kind : BlockKind)
    (label : Option String) (body : List Instruction) (span : Source.Span) (outer : List Int32)
    (completion : Completion (nesting + 1)) :
    (∃ inside inner, completion = .branch ⟨0, inside⟩ inner ∧
      settle program fuel depth nesting kind label body span outer completion =
        instruction program fuel depth nesting (.structured .loop label body span)
          ⟨inner.frame, outer⟩) ∨
    settle program fuel depth nesting kind label body span outer completion =
      pure (completion.close outer) := by
  match kind, completion with
  | .loop, .branch ⟨0, inside⟩ inner => exact .inl ⟨inside, inner, rfl, rfl⟩
  | .loop, .branch ⟨_ + 1, _⟩ _ => exact .inr rfl
  | .loop, .normal _ => exact .inr rfl
  | .loop, .returned _ => exact .inr rfl
  | .block, _ => exact .inr rfl

theorem instruction_structured (fuel depth nesting : Nat) (kind : BlockKind)
    (label : Option String) (body : List Instruction) (span : Source.Span)
    (workspace : Workspace) :
    instruction program (fuel + 1) depth nesting (.structured kind label body span) workspace =
      sequence program fuel depth (nesting + 1) body ⟨workspace.frame, []⟩ >>=
        settle program fuel depth nesting kind label body span workspace.values := by
  cases kind <;> rfl

theorem instruction_call (fuel depth nesting index : Nat) (span : Source.Span)
    (workspace : Workspace) :
    instruction program (fuel + 1) depth nesting (.plain .call (some (.index index)) span)
        workspace =
      call program fuel depth index workspace.values >>= fun values =>
        pure (.normal { workspace with values }) :=
  rfl

theorem instruction_of_ne_call {opcode : Keyword} (other : opcode ≠ .call)
    (fuel depth nesting : Nat) (operand : Option Operand) (span : Source.Span)
    (workspace : Workspace) :
    instruction program (fuel + 1) depth nesting (.plain opcode operand span) workspace =
      liftM (workspace.perform opcode operand) :=
  if_neg other

theorem call_of_enter {fuel depth index : Nat} {values below : List Int32}
    {function : FunctionDefinition} {frame : Frame}
    (entered : enter program depth index values = .ok (function, frame, below)) :
    call program (fuel + 1) depth index values =
      sequence program fuel (depth + 1) 0 function.body ⟨frame, []⟩ >>= fun completion =>
        liftM (leave function.frame.resultCount below completion) := by
  rw [call, entered]
  rfl

end Evaluation

namespace Workspace

@[simp]
theorem ok_bind {α β : Type} (value : α) (next : α → Except RuntimeError β) :
    Except.ok value >>= next = next value :=
  rfl

@[simp]
theorem error_bind {α β : Type} (error : RuntimeError) (next : α → Except RuntimeError β) :
    Except.error error >>= next = .error error :=
  rfl

theorem bind_eq_ok {α β : Type} {first : Except RuntimeError α}
    {next : α → Except RuntimeError β} {result : β} :
    first >>= next = .ok result ↔ ∃ value, first = .ok value ∧ next value = .ok result := by
  cases first <;> simp

theorem split_eq_ok {count : Nat} {values front back : List Int32} :
    split count values = .ok (front, back) ↔ values = front ++ back ∧ front.length = count := by
  unfold split
  constructor
  · intro taken
    split at taken
    · cases taken
    · cases taken
      refine ⟨(List.take_append_drop count values).symm, ?_⟩
      rw [List.length_take]
      omega
  · rintro ⟨rfl, rfl⟩
    simp

end Workspace

namespace Evaluation

/-- A call that starts does so below the limit and of a function that the
program defines, and takes its arguments from the front of the scope. -/
theorem exists_arguments_of_enter {program : Program} {depth index : Nat}
    {values below : List Int32} {function : FunctionDefinition} {frame : Frame}
    (entered : enter program depth index values = .ok (function, frame, below)) :
    depth < program.maxCallDepth ∧ program.definition index = .ok function ∧
      ∃ arguments, values = arguments ++ below ∧
        arguments.length = function.frame.argumentCount ∧
        frame = function.frame.withArguments arguments.reverse := by
  unfold enter at entered
  split at entered
  · cases entered
  · simp only [Workspace.bind_eq_ok] at entered
    obtain ⟨called, defined, ⟨arguments, rest⟩, taken, ended⟩ := entered
    cases ended
    obtain ⟨shape, counted⟩ := Workspace.split_eq_ok.mp taken
    exact ⟨by omega, defined, arguments, shape, counted, rfl⟩

end Evaluation

end WatMachine
