import WatMachine.Proofs.Machine.Evaluation
import WatMachine.Proofs.Machine.Steps

/-!
# How a running call lies on the stack

The stack of a running call shows, from the top, the values of the innermost
scope, then for every enclosing block its label and the values of the scope
that it interrupted, then the activation of the call and whatever was below
it.  What the actions on a stack do to one that is laid out in this way can be
told without looking for places in it.
-/

namespace WatMachine

/-- A scope that a block interrupts: the label of the block, and the values of
the scope, top first. -/
structure Interrupted where
  label : Label
  values : List Int32
  deriving Repr, DecidableEq

namespace Entry

def ofValues (numbers : List Int32) : List Entry :=
  numbers.map .value

/-- The entries of an interrupted scope and the label above it. -/
def ofInterrupted (scope : Interrupted) : List Entry :=
  .label scope.label :: ofValues scope.values

/-- The entries of a call below its innermost scope: the labels of the
enclosing blocks with the scopes they interrupt, innermost first, and the
activation above what was there before the call. -/
def markers (frame : Frame) (below : List Entry) (context : List Interrupted) : List Entry :=
  context.flatMap ofInterrupted ++ .activation frame :: below

/-- Whether no value comes before the first marker. -/
def MarkerLed (entries : List Entry) : Prop :=
  leadingValues entries = []

@[simp]
theorem markers_nil (frame : Frame) (below : List Entry) :
    markers frame below [] = .activation frame :: below :=
  rfl

@[simp]
theorem markers_cons (frame : Frame) (below : List Entry) (scope : Interrupted)
    (context : List Interrupted) :
    markers frame below (scope :: context) =
      .label scope.label :: (ofValues scope.values ++ markers frame below context) := by
  simp [markers, ofInterrupted]

theorem markers_markerLed (frame : Frame) (below : List Entry) (context : List Interrupted) :
    MarkerLed (markers frame below context) := by
  cases context <;> simp [MarkerLed, leadingValues]

@[simp]
theorem ofValues_nil : ofValues [] = [] :=
  rfl

@[simp]
theorem ofValues_cons (number : Int32) (numbers : List Int32) :
    ofValues (number :: numbers) = .value number :: ofValues numbers :=
  rfl

@[simp]
theorem ofValues_append (first second : List Int32) :
    ofValues (first ++ second) = ofValues first ++ ofValues second :=
  List.map_append

@[simp]
theorem length_ofValues (numbers : List Int32) : (ofValues numbers).length = numbers.length :=
  List.length_map _

theorem leadingValues_ofValues_append (numbers : List Int32) (entries : List Entry) :
    leadingValues (ofValues numbers ++ entries) = numbers ++ leadingValues entries := by
  induction numbers with
  | nil => rfl
  | cons number numbers ih => simp [leadingValues, ih]

theorem drop_ofValues_append (count : Nat) (numbers : List Int32) (entries : List Entry)
    (inside : count ≤ numbers.length) :
    (ofValues numbers ++ entries).drop count = ofValues (numbers.drop count) ++ entries := by
  rw [List.drop_append_of_le_length (by simpa using inside)]
  simp [ofValues, List.map_drop]

theorem countP_isLabel_ofValues (numbers : List Int32) :
    (ofValues numbers).countP isLabel = 0 := by
  simp [ofValues, List.countP_eq_zero, isLabel]

theorem countP_isLabel_flatMap (context : List Interrupted) :
    (context.flatMap ofInterrupted).countP isLabel = context.length := by
  induction context with
  | nil => rfl
  | cons scope context ih =>
      rw [List.flatMap_cons, List.countP_append, ih, ofInterrupted,
        List.countP_cons_of_pos rfl, countP_isLabel_ofValues, List.length_cons]
      omega

end Entry

open Entry

namespace Stack

@[simp]
theorem push_ofEntries (entries : List Entry) (entry : Entry) :
    (ofEntries entries).push entry = ofEntries (entry :: entries) :=
  rfl

@[simp]
theorem pushValues_ofEntries (entries : List Entry) (numbers : List Int32) :
    (ofEntries entries).pushValues numbers = ofEntries (ofValues numbers.reverse ++ entries) :=
  Stack.ext rfl

@[simp]
theorem drop_ofEntries (entries : List Entry) (count : Nat) :
    (ofEntries entries).drop count = ofEntries (entries.drop count) :=
  Stack.ext rfl

@[simp]
theorem replace_ofEntries (entries : List Entry) (count : Nat) (entry : Entry) :
    (ofEntries entries).replace count entry = ofEntries (entries.set count entry) :=
  Stack.ext rfl

@[simp]
theorem size_ofEntries (entries : List Entry) : (ofEntries entries).size = entries.length :=
  rfl

/-- The stack of a call with a given workspace inside the given blocks. -/
def laidOut (workspace : Workspace) (context : List Interrupted) (below : List Entry) : Stack :=
  ofEntries (ofValues workspace.values ++ markers workspace.frame below context)

/-- What a branch of a given depth leaves of the stack of a call.  It leaves
the blocks inside its target, and either the target too, whose end it carries
its values to, or a loop at its start. -/
def unwound (workspace : Workspace) (below : List Entry) : List Interrupted → Nat → Stack
  | target :: outer, 0 =>
      if target.label.isLoop then
        laidOut { workspace with values := [] } (target :: outer) below
      else
        laidOut { workspace with values := workspace.values ++ target.values } outer below
  | _ :: outer, depth + 1 => unwound workspace below outer depth
  | [], _ => laidOut workspace [] below

section Places

variable (workspace : Workspace) (context : List Interrupted) (below : List Entry)

theorem entries_laidOut :
    (laidOut workspace context below).entries =
      (ofValues workspace.values ++ context.flatMap ofInterrupted) ++
        .activation workspace.frame :: below := by
  simp [laidOut, markers]

@[simp]
theorem frame?_laidOut :
    (laidOut workspace context below).frame? below.length = some workspace.frame :=
  frame?_append_activation (entries_laidOut workspace context below)

@[simp]
theorem labelsAbove_laidOut :
    (laidOut workspace context below).labelsAbove below.length = context.length := by
  rw [labelsAbove_append (entries_laidOut workspace context below), List.countP_append,
    countP_isLabel_ofValues, countP_isLabel_flatMap, Nat.zero_add]

@[simp]
theorem drop_above_laidOut :
    (laidOut workspace context below).drop ((laidOut workspace context below).above below.length) =
      laidOut ⟨workspace.frame, []⟩ [] below := by
  apply Stack.ext
  rw [above_append (entries_laidOut workspace context below), entries_drop, entries_laidOut,
    List.drop_left]
  rfl

@[simp]
theorem replace_above_laidOut (frame : Frame) :
    (laidOut workspace context below).replace
        ((laidOut workspace context below).above below.length) (.activation frame) =
      laidOut { workspace with frame } context below := by
  apply Stack.ext
  rw [above_append (entries_laidOut workspace context below), entries_replace, entries_laidOut,
    entries_laidOut, List.set_append_right _ _ (Nat.le_refl _), Nat.sub_self]
  rfl

@[simp]
theorem push_value_laidOut (number : Int32) :
    (laidOut workspace context below).push (.value number) =
      laidOut (workspace.push number) context below :=
  rfl

@[simp]
theorem push_label_laidOut (label : Label) :
    (laidOut workspace context below).push (.label label) =
      laidOut ⟨workspace.frame, []⟩ (⟨label, workspace.values⟩ :: context) below := by
  apply Stack.ext
  simp [laidOut]

@[simp]
theorem pushValues_laidOut (numbers : List Int32) :
    (laidOut workspace context below).pushValues numbers =
      laidOut { workspace with values := numbers.reverse ++ workspace.values } context below := by
  apply Stack.ext
  simp [laidOut, ofValues]

end Places

end Stack

namespace StackAction

open Stack

@[simp]
theorem push_apply (entry : Entry) (stack : Stack) :
    push entry stack = (.ok (), stack.push entry) :=
  rfl

@[simp]
theorem pushValue_apply (number : Int32) (stack : Stack) :
    pushValue number stack = (.ok (), stack.push (.value number)) :=
  rfl

@[simp]
theorem pushValues_apply (numbers : List Int32) (stack : Stack) :
    pushValues numbers stack = (.ok (), stack.pushValues numbers) :=
  rfl

@[simp]
theorem truncate_apply (base : Nat) (stack : Stack) :
    truncate base stack = (.ok (), stack.drop (stack.above base)) :=
  rfl

/-- Values are popped from the innermost scope only. -/
theorem popValues_apply (count : Nat) (numbers : List Int32) {entries : List Entry}
    (marked : MarkerLed entries) :
    popValues count (ofEntries (ofValues numbers ++ entries)) =
      if numbers.length < count then
        (.error (.arityMismatch count numbers.length), ofEntries (ofValues numbers ++ entries))
      else
        (.ok (numbers.take count).reverse,
          ofEntries (ofValues (numbers.drop count) ++ entries)) := by
  have taken : takeValues count (ofValues numbers ++ entries) = numbers.take count := by
    rw [takeValues_eq_take, leadingValues_ofValues_append, marked, List.append_nil]
  by_cases few : numbers.length < count
  · simp [popValues, taken, few, List.take_of_length_le (Nat.le_of_lt few)]
  · have enough : count ≤ numbers.length := Nat.le_of_not_lt few
    simp [popValues, taken, few, Nat.min_eq_left enough, drop_ofValues_append _ _ _ enough]

section LaidOut

variable (frame : Frame) (values : List Int32) (context : List Interrupted) (below : List Entry)

@[simp]
theorem frame_laidOut (workspace : Workspace) :
    StackAction.frame below.length (laidOut workspace context below) =
      (.ok workspace.frame, laidOut workspace context below) := by
  simp [StackAction.frame]

theorem frame_bind_laidOut {α : Type} (workspace : Workspace) (next : Frame → StackAction α) :
    (StackAction.frame below.length >>= next) (laidOut workspace context below) =
      next workspace.frame (laidOut workspace context below) := by
  rw [bind_apply, frame_laidOut]

@[simp]
theorem popValue_laidOut_cons (number : Int32) :
    popValue (laidOut ⟨frame, number :: values⟩ context below) =
      (.ok number, laidOut ⟨frame, values⟩ context below) := by
  simp [popValue, laidOut]

@[simp]
theorem popValue_laidOut_nil :
    popValue (laidOut ⟨frame, []⟩ context below) =
      (.error .stackUnderflow, laidOut ⟨frame, []⟩ context below) := by
  cases context <;> simp [popValue, laidOut]

theorem popValues_laidOut (count : Nat) :
    popValues count (laidOut ⟨frame, values⟩ context below) =
      if values.length < count then
        (.error (.arityMismatch count values.length), laidOut ⟨frame, values⟩ context below)
      else
        (.ok (values.take count).reverse, laidOut ⟨frame, values.drop count⟩ context below) :=
  popValues_apply count values (markers_markerLed frame below context)

@[simp]
theorem drainScope_laidOut (workspace : Workspace) :
    drainScope (laidOut workspace context below) =
      (.ok workspace.values.reverse, laidOut ⟨workspace.frame, []⟩ context below) := by
  have marked : leadingValues (markers workspace.frame below context) = [] :=
    markers_markerLed workspace.frame below context
  have scope : (laidOut workspace context below).scope = workspace.values := by
    simp [Stack.scope, laidOut, leadingValues_ofValues_append, marked]
  simp [drainScope, scope]
  simp [laidOut]

@[simp]
theorem popLabel_laidOut (scope : Interrupted) :
    popLabel (laidOut ⟨frame, []⟩ (scope :: context) below) =
      (.ok scope.label, laidOut ⟨frame, scope.values⟩ context below) := by
  simp [popLabel, laidOut]

@[simp]
theorem popActivation_laidOut :
    popActivation (laidOut ⟨frame, []⟩ [] below) = (.ok frame, ofEntries below) := by
  simp [popActivation, laidOut]

end LaidOut

end StackAction

end WatMachine
