import WatMachine.Machine.Stack

/-!
# What instructions do to the stack

Every instruction other than a call, a block or a loop acts on the stack
alone.  Branches unwind the stack where they are executed: the scopes and
labels they leave are gone before the enclosing blocks hear of them.
-/

namespace WatMachine

/-- How the execution of instructions ends. -/
inductive Ending where
  /-- The next instruction follows. -/
  | normal
  /-- A branch is on its way out of `depth` more blocks around this one. -/
  | branch (depth : Nat)
  /-- The function returns, with its results above its activation. -/
  | returned
  deriving Repr, DecidableEq, Inhabited

namespace Operation

/-- The number that stands for a truth value. -/
def truth (condition : Bool) : Int32 :=
  if condition then 1 else 0

/-- The instructions that combine two numbers into one, on 32 bits with
wrapping. -/
def binary? : Keyword → Option (Int32 → Int32 → Int32)
  | .i32Add => some fun first second => first + second
  | .i32Sub => some fun first second => first - second
  | .i32And => some fun first second => first &&& second
  | .i32Or => some fun first second => first ||| second
  | .i32Eq => some fun first second => truth (first == second)
  | .i32LtS => some fun first second => truth (decide (first < second))
  | .i32GtU => some fun first second => truth (decide (second.toUInt32 < first.toUInt32))
  | .i32GeS => some fun first second => truth (decide (second ≤ first))
  | _ => none

/-- Replaces the two topmost values by their combination. -/
def combine (operation : Int32 → Int32 → Int32) : StackAction Unit := do
  let second ← StackAction.popValue
  let first ← StackAction.popValue
  StackAction.pushValue (operation first second)

/-- Replaces the topmost value by whether it is zero. -/
def isZero : StackAction Unit := do
  let number ← StackAction.popValue
  StackAction.pushValue (truth (number == 0))

/-- Pops a value and drops it. -/
def drop : StackAction Unit := do
  let _ ← StackAction.popValue

/-- Pushes the value of a variable of the activation at a place. -/
def getLocal (base index : Nat) : StackAction Unit := do
  match (← StackAction.frame base).get? index with
  | some number => StackAction.pushValue number
  | none => throw (.localOutOfBounds index)

/-- Stores a number in a variable of the activation at a place. -/
def storeLocal (base index : Nat) (number : Int32) : StackAction Unit := do
  if ← StackAction.setLocal base index number then return ()
  else throw (.localOutOfBounds index)

/-- Pops a value and stores it in a variable. -/
def setLocal (base index : Nat) : StackAction Unit := do
  let number ← StackAction.popValue
  storeLocal base index number

/-- Stores the topmost value in a variable and leaves it where it is. -/
def teeLocal (base index : Nat) : StackAction Unit := do
  let number ← StackAction.popValue
  StackAction.pushValue number
  storeLocal base index number

/-- Returns from the call whose activation is at a place: its results come to
stand directly above the activation. -/
def returnFrom (base resultCount : Nat) : StackAction Ending := do
  let results ← StackAction.popValues resultCount
  StackAction.truncate base
  StackAction.pushValues results
  return .returned

/-- Leaves `depth + 1` scopes with their labels, and gives the last label. -/
def unwind : Nat → StackAction Label
  | 0 => do
      let _ ← StackAction.drainScope
      StackAction.popLabel
  | depth + 1 => do
      let _ ← StackAction.drainScope
      let _ ← StackAction.popLabel
      unwind depth

/-- Branches to the label at a depth.  The values of the innermost scope
travel along to the end of a block; a loop starts again without them.  A
depth beyond the labels of the call returns from it. -/
def branch (base depth resultCount : Nat) : StackAction Ending := do
  if (← get).labelsAbove base ≤ depth then
    returnFrom base resultCount
  else
    let carried ← StackAction.drainScope
    let target ← unwind depth
    if target.isLoop then
      StackAction.push (.label target)
    else
      StackAction.pushValues carried
    return .branch depth

/-- Branches if the topmost value, which is popped, is not zero. -/
def branchIf (base depth resultCount : Nat) : StackAction Ending := do
  let condition ← StackAction.popValue
  if condition = 0 then return .normal
  else branch base depth resultCount

/-- The index that an instruction has as its operand. -/
def indexOperand (opcode : Keyword) : Option Operand → StackAction Nat
  | some (.index value) => return value
  | _ => throw (.missingOperand opcode)

/-- The number that an instruction has as its operand, cut to 32 bits. -/
def literalOperand (opcode : Keyword) : Option Operand → StackAction Int32
  | some (.literal value) => return Int32.ofInt value
  | _ => throw (.missingOperand opcode)

/-- Executes an instruction other than a call, a block or a loop, for the
call whose activation is at a place. -/
def perform (base : Nat) (opcode : Keyword) (operand : Option Operand) :
    StackAction Ending := do
  match opcode with
  | .localGet =>
      getLocal base (← indexOperand opcode operand)
      return .normal
  | .localSet =>
      setLocal base (← indexOperand opcode operand)
      return .normal
  | .localTee =>
      teeLocal base (← indexOperand opcode operand)
      return .normal
  | .i32Const =>
      StackAction.pushValue (← literalOperand opcode operand)
      return .normal
  | .i32Eqz =>
      isZero
      return .normal
  | .drop =>
      drop
      return .normal
  | .nop => return .normal
  | .br =>
      let frame ← StackAction.frame base
      branch base (← indexOperand opcode operand) frame.resultCount
  | .brIf =>
      let frame ← StackAction.frame base
      branchIf base (← indexOperand opcode operand) frame.resultCount
  | .functionReturn =>
      let frame ← StackAction.frame base
      returnFrom base frame.resultCount
  | other =>
      match binary? other with
      | some operation =>
          combine operation
          return .normal
      | none => throw (.unimplementedInstruction other)

end Operation

end WatMachine
