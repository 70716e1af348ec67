import WatMachine.Proofs.Machine.FrameShape
import WatMachine.Proofs.Machine.Operations

/-!
# How blocks and calls end

What a block makes of the ending of its body, and a call of the ending of its
function, is the same in execution and in evaluation.
-/

namespace WatMachine

open Entry

/-- A call on a stack ends as evaluation does, with the given entries still
below the values of the caller's scope. -/
inductive CallMatches (entries : List Entry) :
    Except RuntimeError (List Int32) → Except RuntimeError Unit × Stack → Prop where
  | error (error : RuntimeError) (stack : Stack) :
      CallMatches entries (.error error) (.error error, stack)
  | ok (values : List Int32) :
      CallMatches entries (.ok values) (.ok (), .ofEntries (ofValues values ++ entries))

namespace Execution

open Stack StackAction

theorem enter_apply (program : Program) (depth index : Nat) (values : List Int32)
    {entries : List Entry} (marked : MarkerLed entries) :
    enter program index ⟨.ofEntries (ofValues values ++ entries), depth⟩ =
      match Evaluation.enter program depth index values with
      | .error error => some (.error error, ⟨.ofEntries (ofValues values ++ entries), depth⟩)
      | .ok (function, frame, below) =>
          some (.ok (function, (ofValues below ++ entries).length),
            ⟨.laidOut ⟨frame, []⟩ [] (ofValues below ++ entries), depth⟩) := by
  unfold enter Evaluation.enter
  by_cases deep : program.maxCallDepth ≤ depth
  · simp [deep]
    rfl
  · simp only [bind_apply, get_apply, if_neg deep, liftM_apply]
    cases program.definition index with
    | error error => rfl
    | ok function =>
        simp only [onStack_apply, popValues_apply _ _ marked, Workspace.ok_bind, Workspace.split]
        by_cases few : values.length < function.frame.argumentCount
        · simp only [if_pos few]
          rfl
        · simp only [if_neg few]
          rfl

theorem closeBlock_laidOut (workspace : Workspace) (scope : Interrupted)
    (context : List Interrupted) (below : List Entry) :
    closeBlock (laidOut workspace (scope :: context) below) =
      (.ok (), laidOut { workspace with values := workspace.values ++ scope.values }
        context below) := by
  simp [closeBlock]

theorem leave_laidOut (resultCount : Nat) (frame : Frame) (numbers : List Int32)
    (below : List Entry) :
    leave below.length resultCount (laidOut ⟨frame, numbers⟩ [] below) =
      if numbers.length < resultCount then
        (.error (.arityMismatch resultCount numbers.length), laidOut ⟨frame, numbers⟩ [] below)
      else
        (.ok (), ofEntries (ofValues (numbers.take resultCount) ++ below)) := by
  by_cases few : numbers.length < resultCount
  · simp [leave, popValues_laidOut, few]
  · simp [leave, popValues_laidOut, few]

/-- Ending a call puts its results on the scope that it started from. -/
theorem leave_matches {template : Frame} {completion : Completion 0} {ending : Ending}
    {stack : Stack} {values : List Int32} {entries : List Entry} (fits : completion.Fits template)
    (matched : Matches [] (ofValues values ++ entries) (.ok completion) (.ok ending, stack)) :
    CallMatches entries (Evaluation.leave template.resultCount values completion)
      (leave (ofValues values ++ entries).length template.resultCount stack) := by
  cases matched with
  | normal workspace =>
      rw [leave_laidOut, Evaluation.leave, Workspace.split]
      split
      · exact .error _ _
      · rw [← List.append_assoc, ← ofValues_append]
        exact .ok _
  | branch depth workspace => exact depth.elim0
  | returned frame results =>
      have exactly : results.length = template.resultCount := fits
      rw [leave_laidOut, if_neg (by omega), ← exactly, List.take_length, ← List.append_assoc,
        ← ofValues_append]
      exact .ok _

section Blocks

variable (program : Program) {kind : BlockKind} {outer : List Int32} {context : List Interrupted}
  {below : List Entry} {completion : Completion (context.length + 1)} {ending : Ending}
  {stack : Stack}

theorem settle_loop (fuel depth : Nat) (label : Option String) (body : List Instruction)
    (span : Source.Span) (workspace : Workspace) :
    settle program fuel below.length .loop body (.branch 0)
        ⟨unwound workspace below (⟨.start .loop, outer⟩ :: context) 0, depth⟩ =
      instruction program (fuel + 1) below.length (.structured .loop label body span)
        ⟨laidOut ⟨workspace.frame, outer⟩ context below, depth⟩ := by
  have landed : unwound workspace below (⟨.start .loop, outer⟩ :: context) 0 =
      laidOut ⟨workspace.frame, []⟩ (⟨.start .loop, outer⟩ :: context) below := rfl
  have top : (laidOut ⟨workspace.frame, []⟩ (⟨.start .loop, outer⟩ :: context) below).topLabel? =
      some (.start .loop) := by
    simp [topLabel?, laidOut, leadingLabel?]
  rw [settle, landed, bind_apply, get_apply, instruction, bind_apply, onStack_apply]
  simp only [top, push_apply, push_label_laidOut]
  rfl

/-- What a block makes of the ending of its body is what evaluation makes of
it: either both go back to the start of a loop, or both end the block. -/
theorem settle_cases (depth : Nat) (label : Option String) (body : List Instruction)
    (span : Source.Span)
    (matched : Matches (⟨.start kind, outer⟩ :: context) below (.ok completion)
      (.ok ending, stack)) :
    (∃ inside workspace, kind = .loop ∧ completion = .branch ⟨0, inside⟩ workspace ∧
      ∀ fuel, settle program fuel below.length kind body ending ⟨stack, depth⟩ =
        instruction program (fuel + 1) below.length (.structured .loop label body span)
          ⟨laidOut ⟨workspace.frame, outer⟩ context below, depth⟩) ∨
    (∀ fuel, Evaluation.settle program fuel depth context.length kind label body span outer
        completion = pure (completion.close outer)) ∧
      ∃ result after, Matches context below (.ok (completion.close outer)) (result, after) ∧
        ∀ fuel, settle program fuel below.length kind body ending ⟨stack, depth⟩ =
          some (result, ⟨after, depth⟩) := by
  cases matched with
  | normal workspace =>
      refine .inr ⟨fun fuel => by cases kind <;> rfl, _, _, .normal _, ?_⟩
      intro fuel
      simp [settle, closeBlock_laidOut]
  | branch target workspace =>
      match target, kind with
      | ⟨0, inside⟩, .loop =>
          exact .inl ⟨inside, workspace, rfl, rfl,
            fun fuel => settle_loop program fuel depth label body span workspace⟩
      | ⟨0, inside⟩, .block =>
          exact .inr ⟨fun fuel => rfl, _, _, .normal _, fun fuel => rfl⟩
      | ⟨target + 1, inside⟩, kind =>
          refine .inr ⟨fun fuel => by cases kind <;> rfl, _, _, .branch _ workspace, ?_⟩
          intro fuel
          rfl
  | returned frame results =>
      refine .inr ⟨fun fuel => by cases kind <;> rfl, _, _, .returned frame results, ?_⟩
      intro fuel
      rfl

end Blocks

/-- A step ended as evaluation did, with as many active calls as before. -/
def Agrees {α β : Type}
    (matched : Except RuntimeError α → Except RuntimeError β × Stack → Prop) (depth : Nat)
    (result : Except RuntimeError α) (outcome : Except RuntimeError β × Machine) : Prop :=
  ∃ ended stack, outcome = (ended, ⟨stack, depth⟩) ∧ matched result (ended, stack)

section Calls

variable {program : Program} {fuel depth index : Nat} {values below : List Int32}
  {entries : List Entry} {function : FunctionDefinition} {frame : Frame}

theorem call_apply_of_enter (marked : MarkerLed entries)
    (entered : Evaluation.enter program depth index values = .ok (function, frame, below)) :
    call program (fuel + 1) index ⟨ofEntries (ofValues values ++ entries), depth⟩ =
      (asCall (sequence program fuel (ofValues below ++ entries).length function.body) >>=
        fun ending =>
          match ending with
          | .branch depth => throw (.invalidLabel depth)
          | .normal | .returned =>
              onStack (leave (ofValues below ++ entries).length function.frame.resultCount))
        ⟨laidOut ⟨frame, []⟩ [] (ofValues below ++ entries), depth⟩ := by
  rewrite [call, bind_apply, enter_apply _ _ _ _ marked, entered]
  rfl

/-- A call whose body has ended ends as evaluation makes it end. -/
theorem call_of_body (marked : MarkerLed entries)
    (entered : Evaluation.enter program depth index values = .ok (function, frame, below))
    {result : Except RuntimeError (Completion ([] : List Interrupted).length)}
    {ended : Except RuntimeError Ending} {stack : Stack} {spent : Nat}
    (evaluated : (Evaluation.sequence program spent (depth + 1) 0 function.body ⟨frame, []⟩).run =
      some result)
    (ran : sequence program fuel (ofValues below ++ entries).length function.body
      ⟨laidOut ⟨frame, []⟩ [] (ofValues below ++ entries), depth + 1⟩ =
        some (ended, ⟨stack, depth + 1⟩))
    (matched : Matches [] (ofValues below ++ entries) result (ended, stack)) :
    ∃ outcome,
      call program (fuel + 1) index ⟨ofEntries (ofValues values ++ entries), depth⟩ =
        some outcome ∧
      Agrees (CallMatches entries) depth
        (result >>= Evaluation.leave function.frame.resultCount below) outcome := by
  rw [call_apply_of_enter marked entered, bind_apply, asCall_apply, ran]
  cases result with
  | error error =>
      cases matched
      exact ⟨_, rfl, _, _, rfl, .error _ _⟩
  | ok completion =>
      have fits : completion.Fits function.frame :=
        (Evaluation.fits_of_run program function.frame spent).1 _ _ _ _ _
          (Evaluation.enter_fits entered) evaluated
      have left := fun ending (same : ended = .ok ending) => leave_matches fits (same ▸ matched)
      cases matched with
      | normal workspace => exact ⟨_, rfl, _, _, rfl, left .normal rfl⟩
      | branch depth workspace => exact depth.elim0
      | returned frame results => exact ⟨_, rfl, _, _, rfl, left .returned rfl⟩

end Calls

end Execution

end WatMachine
