import WatMachine.Proofs.Machine.Operations

/-!
# Where a branch lands

The entries above the activation of a running call are values and labels in
any order.  A branch whose depth is below the number of these labels takes the
stack down to the label at that depth, counted from the top, and no further;
any other branch returns from the call.
-/

namespace WatMachine

open Entry Stack

namespace Entry

/-- Values and labels in any order are the values of an innermost scope above
the scopes that the labels interrupt. -/
theorem exists_scopes {segment : List Entry} (inCall : ∀ frame, .activation frame ∉ segment) :
    ∃ (values : List Int32) (context : List Interrupted),
      segment = ofValues values ++ context.flatMap ofInterrupted := by
  induction segment with
  | nil => exact ⟨[], [], rfl⟩
  | cons entry segment ih =>
      obtain ⟨values, context, rfl⟩ := ih fun frame found =>
        inCall frame (List.mem_cons_of_mem _ found)
      cases entry with
      | value number => exact ⟨number :: values, context, rfl⟩
      | label marker => exact ⟨[], ⟨marker, values⟩ :: context, by simp [ofInterrupted]⟩
      | activation frame => exact absurd List.mem_cons_self (inCall frame)

theorem leadingValues_scopes (values : List Int32) (context : List Interrupted) :
    leadingValues (ofValues values ++ context.flatMap ofInterrupted) = values := by
  rw [leadingValues_ofValues_append]
  cases context <;> simp [ofInterrupted, leadingValues]

theorem countP_isLabel_scopes (values : List Int32) (context : List Interrupted) :
    (ofValues values ++ context.flatMap ofInterrupted).countP isLabel = context.length := by
  rw [List.countP_append, countP_isLabel_ofValues, countP_isLabel_flatMap, Nat.zero_add]

end Entry

namespace Stack

theorem laidOut_eq (workspace : Workspace) (context : List Interrupted) (below : List Entry) :
    laidOut workspace context below =
      ofEntries ((ofValues workspace.values ++ context.flatMap ofInterrupted) ++
        .activation workspace.frame :: below) :=
  Stack.ext (entries_laidOut workspace context below)

/-- What a branch leaves that lands at the innermost of the given blocks. -/
theorem unwound_zero (frame : Frame) (values : List Int32) (target : Interrupted)
    (outer : List Interrupted) (below : List Entry) :
    unwound ⟨frame, values⟩ below (target :: outer) 0 =
      ofEntries ((if target.label.isLoop then [.label target.label] else ofValues values) ++
        (ofValues target.values ++ outer.flatMap ofInterrupted) ++ .activation frame :: below) := by
  by_cases isLoop : target.label.isLoop = true
  · simp [unwound, isLoop, laidOut_eq, ofInterrupted]
  · simp [unwound, isLoop, laidOut_eq]

end Stack

namespace Operation

/-- A branch inside a call lands exactly on its target.  If the call has more
labels than the depth, then the stack comes down to the label with that many
labels above it.  A block goes too, and the values that stood above the topmost
label take its place; a loop stays, with no value above it.  If the call has no
such label, then the branch does what a return does: the results come to stand
above the activation, or the stack is left alone where there are too few values
above the topmost marker. -/
theorem branch_lands (below segment : List Entry) (frame : Frame) (depth resultCount : Nat)
    (inCall : ∀ inner, .activation inner ∉ segment) :
    let stack := ofEntries (segment ++ .activation frame :: below)
    let carried := leadingValues segment
    (depth < segment.countP isLabel → ∃ front target back,
      segment = front ++ .label target :: back ∧ front.countP isLabel = depth ∧
        branch below.length depth resultCount stack =
          (.ok (.branch depth),
            ofEntries ((if target.isLoop then [.label target] else ofValues carried) ++
              back ++ .activation frame :: below))) ∧
    (segment.countP isLabel ≤ depth →
      branch below.length depth resultCount stack = returnFrom below.length resultCount stack ∧
        returnFrom below.length resultCount stack =
          if carried.length < resultCount then
            (.error (.arityMismatch resultCount carried.length), stack)
          else
            (.ok .returned,
              ofEntries (ofValues (carried.take resultCount) ++ .activation frame :: below))) := by
  intro stack carried
  -- Any values and labels are scopes, so that the stack is laid out for its call.
  obtain ⟨values, context, shape⟩ := exists_scopes inCall
  have standing : stack = laidOut ⟨frame, values⟩ context below := by
    rw [laidOut_eq, ← shape]
  have labels : segment.countP isLabel = context.length := by
    rw [shape, countP_isLabel_scopes]
  have carried_eq : carried = values := by
    rw [← leadingValues_scopes values context, ← shape]
  rw [labels, standing, carried_eq]
  constructor
  · intro inside
    obtain ⟨inner, target, outer, rfl, rfl⟩ : ∃ inner target outer,
        context = inner ++ target :: outer ∧ inner.length = depth :=
      ⟨context.take depth, context[depth], context.drop (depth + 1), by simp, by simp; omega⟩
    refine ⟨ofValues values ++ inner.flatMap ofInterrupted, target.label,
      ofValues target.values ++ outer.flatMap ofInterrupted, ?_, countP_isLabel_scopes _ _, ?_⟩
    · simp [shape, ofInterrupted]
    · rw [branch_laidOut, unwound_append, unwound_zero]
  · intro beyond
    refine ⟨by simp [branch, beyond], ?_⟩
    rw [returnFrom_laidOut, laidOut_eq ⟨frame, values.take resultCount⟩]
    simp

/-- A loop inside a block inside a loop, with values between them: a branch to
the block lands there, and one beyond the outer loop has too few results to
return. -/
theorem branch_lands_betweenLoops :
    let segment : List Entry :=
      [.value 7, .value 6, .label ⟨.loop, 2⟩, .value 5, .label ⟨.block, 0⟩, .value 4,
        .label ⟨.loop, 9⟩]
    let frame : Frame := ⟨[], 0, [.i32]⟩
    let stack := ofEntries (segment ++ [.activation frame, .value 1])
    (∀ inner, .activation inner ∉ segment) ∧
      (∃ front target back, segment = front ++ .label target :: back ∧ front.countP isLabel = 1 ∧
        branch 1 1 1 stack =
          (.ok (.branch 1),
            ofEntries ((if target.isLoop then [.label target] else [.value 7, .value 6]) ++
              back ++ [.activation frame, .value 1]))) ∧
      branch 1 3 3 stack = (.error (.arityMismatch 3 2), stack) := by
  intro segment frame stack
  have inCall : ∀ inner, .activation inner ∉ segment := by simp [segment]
  have inside := (branch_lands [.value 1] segment frame 1 1 inCall).1 (by decide)
  have beyond := (branch_lands [.value 1] segment frame 3 3 inCall).2 (by decide)
  exact ⟨inCall, inside, beyond.1.trans beyond.2⟩

end Operation

end WatMachine
