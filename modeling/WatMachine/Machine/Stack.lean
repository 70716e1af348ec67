import WatMachine.Machine.RuntimeError
import WatMachine.Module.Frame
import WatMachine.Module.Instruction

/-!
# The mixed stack

One stack holds the operands of all running calls together with markers: an
activation for every call and a label for every block or loop being executed.
The values above the topmost marker are the scope of the innermost block, and
no pop of values reaches below it.  A place on the stack is counted from the
bottom, so that it keeps its number while entries come and go above it.

A stack carries its size, so that a place is found by going down from the top
only as far as it lies, however many calls are below.
-/

namespace WatMachine

/-- The marker of a block or loop being executed.  A branch to a loop
continues at the instruction numbered `resume` of its body. -/
structure Label where
  kind : BlockKind
  resume : Nat
  deriving Repr, DecidableEq, Inhabited

/-- One entry of the mixed stack. -/
inductive Entry where
  | value (number : Int32)
  | label (marker : Label)
  | activation (frame : Frame)
  deriving Repr, DecidableEq, Inhabited

/-- The mixed stack: its entries, top first, and their number. -/
structure Stack where
  entries : List Entry
  size : Nat
  size_eq : size = entries.length
  deriving Repr, DecidableEq

/-- An action on the stack, which may fail.  The stack keeps what the action
did before it failed. -/
abbrev StackAction (α : Type) := ExceptT RuntimeError (StateM Stack) α

namespace Label

/-- The label of a block or loop that starts. -/
def start (kind : BlockKind) : Label := ⟨kind, 0⟩

/-- Whether a label marks a loop. -/
def isLoop (label : Label) : Bool :=
  label.kind == .loop

end Label

namespace Entry

/-- Whether an entry is a label. -/
def isLabel : Entry → Bool
  | label _ => true
  | _ => false

/-- The value of an entry that is no marker. -/
def value? : Entry → Option Int32
  | value number => some number
  | _ => none

/-- The values in front of the first marker. -/
def leadingValues : List Entry → List Int32
  | value number :: rest => number :: leadingValues rest
  | _ => []

/-- At most `count` of the values in front of the first marker. -/
def takeValues : Nat → List Entry → List Int32
  | count + 1, value number :: rest => number :: takeValues count rest
  | _, _ => []

/-- The first marker, if it is a label. -/
def leadingLabel? : List Entry → Option Label
  | value _ :: rest => leadingLabel? rest
  | label marker :: _ => some marker
  | _ => none

theorem takeValues_eq_take (count : Nat) (entries : List Entry) :
    takeValues count entries = (leadingValues entries).take count := by
  induction entries generalizing count with
  | nil => cases count <;> rfl
  | cons entry rest hypothesis =>
      cases count with
      | zero => rfl
      | succ count => cases entry <;> simp [takeValues, leadingValues, hypothesis]

end Entry

namespace Stack

/-- The stack of given entries, top first. -/
def ofEntries (entries : List Entry) : Stack :=
  ⟨entries, entries.length, rfl⟩

/-- The stack without entries. -/
def empty : Stack := ofEntries []

/-- Puts an entry on top. -/
def push (stack : Stack) (entry : Entry) : Stack :=
  ⟨entry :: stack.entries, stack.size + 1, by simp [stack.size_eq]⟩

/-- Puts values on top, the first of them first. -/
def pushValues (stack : Stack) (numbers : List Int32) : Stack :=
  ⟨numbers.reverse.map .value ++ stack.entries, numbers.length + stack.size,
    by simp [stack.size_eq]⟩

/-- Takes entries off the top, as far as there are any. -/
def drop (stack : Stack) (count : Nat) : Stack :=
  ⟨stack.entries.drop count, stack.size - count, by simp [stack.size_eq]⟩

/-- Replaces the entry that has `count` entries above it. -/
def replace (stack : Stack) (count : Nat) (entry : Entry) : Stack :=
  ⟨stack.entries.set count entry, stack.size, by simp [stack.size_eq]⟩

/-- The values above the topmost marker, top first. -/
def scope (stack : Stack) : List Int32 :=
  Entry.leadingValues stack.entries

/-- The label of the innermost scope, if a label marks it. -/
def topLabel? (stack : Stack) : Option Label :=
  Entry.leadingLabel? stack.entries

/-- The number of entries above a place. -/
def above (stack : Stack) (base : Nat) : Nat :=
  stack.size - (base + 1)

/-- The frame of the activation at a place. -/
def frame? (stack : Stack) (base : Nat) : Option Frame :=
  if base < stack.size then
    match stack.entries[stack.above base]? with
    | some (.activation frame) => some frame
    | _ => none
  else none

/-- The number of labels above a place. -/
def labelsAbove (stack : Stack) (base : Nat) : Nat :=
  (stack.entries.take (stack.above base)).countP Entry.isLabel

/-- All values of a stack, bottom first, whatever markers stand between
them. -/
def values (stack : Stack) : List Int32 :=
  (stack.entries.filterMap Entry.value?).reverse

/-- A stack is determined by its entries. -/
@[ext]
theorem ext {first second : Stack} (same : first.entries = second.entries) :
    first = second := by
  obtain ⟨entries, size, rfl⟩ := first
  obtain ⟨others, number, rfl⟩ := second
  simp_all

@[simp]
theorem entries_ofEntries (entries : List Entry) :
    (ofEntries entries).entries = entries :=
  rfl

@[simp]
theorem entries_empty : empty.entries = [] :=
  rfl

@[simp]
theorem entries_push (stack : Stack) (entry : Entry) :
    (stack.push entry).entries = entry :: stack.entries :=
  rfl

@[simp]
theorem entries_pushValues (stack : Stack) (numbers : List Int32) :
    (stack.pushValues numbers).entries =
      numbers.reverse.map .value ++ stack.entries :=
  rfl

@[simp]
theorem entries_drop (stack : Stack) (count : Nat) :
    (stack.drop count).entries = stack.entries.drop count :=
  rfl

@[simp]
theorem entries_replace (stack : Stack) (count : Nat) (entry : Entry) :
    (stack.replace count entry).entries = stack.entries.set count entry :=
  rfl

theorem above_append {stack : Stack} {front back : List Entry} {entry : Entry}
    (shape : stack.entries = front ++ entry :: back) :
    stack.above back.length = front.length := by
  simp [above, stack.size_eq, shape]

/-- The activation above `back.length` entries is at the place of that
number. -/
theorem frame?_append_activation {stack : Stack} {front back : List Entry} {frame : Frame}
    (shape : stack.entries = front ++ .activation frame :: back) :
    stack.frame? back.length = some frame := by
  have inside : back.length < stack.size := by
    simp [stack.size_eq, shape]
    omega
  simp [frame?, inside, above_append shape, shape]

theorem labelsAbove_append {stack : Stack} {front back : List Entry} {entry : Entry}
    (shape : stack.entries = front ++ entry :: back) :
    stack.labelsAbove back.length = front.countP Entry.isLabel := by
  simp [labelsAbove, above_append shape, shape]

end Stack

namespace StackAction

/-- Pushes one entry. -/
def push (entry : Entry) : StackAction Unit :=
  modify fun (stack : Stack) => stack.push entry

/-- Pushes one value. -/
def pushValue (number : Int32) : StackAction Unit :=
  push (.value number)

/-- Pushes values, the first of them first. -/
def pushValues (numbers : List Int32) : StackAction Unit :=
  modify fun (stack : Stack) => stack.pushValues numbers

/-- Pops a value of the innermost scope. -/
def popValue : StackAction Int32 := do
  let stack ← get
  match stack.entries with
  | .value number :: _ =>
      set (stack.drop 1)
      return number
  | _ => throw .stackUnderflow

/-- Pops some values of the innermost scope and gives them in the order in
which they were pushed.  If the scope has fewer, none is popped. -/
def popValues (count : Nat) : StackAction (List Int32) := do
  let stack ← get
  let taken := Entry.takeValues count stack.entries
  if taken.length < count then
    throw (.arityMismatch count taken.length)
  else
    set (stack.drop count)
    return taken.reverse

/-- Pops all values of the innermost scope and gives them in the order in
which they were pushed. -/
def drainScope : StackAction (List Int32) := do
  let stack ← get
  let scope := stack.scope
  set (stack.drop scope.length)
  return scope.reverse

/-- Pops an entry that has to be a label. -/
def popLabel : StackAction Label := do
  let stack ← get
  set (stack.drop 1)
  match stack.entries with
  | .label marker :: _ => return marker
  | _ => throw (.corruptStack .labelExpected)

/-- Pops an entry that has to be an activation. -/
def popActivation : StackAction Frame := do
  let stack ← get
  set (stack.drop 1)
  match stack.entries with
  | .activation frame :: _ => return frame
  | _ => throw (.corruptStack .activationExpected)

/-- The frame of the activation at a place. -/
def frame (base : Nat) : StackAction Frame := do
  match (← get).frame? base with
  | some frame => return frame
  | none => throw (.corruptStack .activationMissing)

/-- Stores a value in a variable of the activation at a place, and tells
whether there is such a variable. -/
def setLocal (base index : Nat) (number : Int32) : StackAction Bool := do
  match (← frame base).set? index number with
  | some changed =>
      modify fun (stack : Stack) => stack.replace (stack.above base) (.activation changed)
      return true
  | none => return false

/-- Drops every entry above a place. -/
def truncate (base : Nat) : StackAction Unit :=
  modify fun (stack : Stack) => stack.drop (stack.above base)

/-- Takes all values off the stack, bottom first, and drops the markers. -/
def drainValues : StackAction (List Int32) := do
  let stack ← get
  set Stack.empty
  return stack.values

end StackAction

end WatMachine
