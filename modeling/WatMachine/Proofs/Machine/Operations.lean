import WatMachine.Proofs.Machine.Layout

/-!
# Operations on the stack of a call

Every instruction other than a call or a block turns a stack that is laid out
for its call into one that is laid out the same way, and does to it what
evaluation does to the workspace of the call.
-/

namespace WatMachine

open Entry

/-- An action on the stack of a call, inside the given blocks, ends as
evaluation does, and leaves the stack that goes with that ending. -/
inductive Matches (context : List Interrupted) (below : List Entry) :
    Except RuntimeError (Completion context.length) →
      Except RuntimeError Ending × Stack → Prop where
  | error (error : RuntimeError) (stack : Stack) :
      Matches context below (.error error) (.error error, stack)
  | normal (workspace : Workspace) :
      Matches context below (.ok (.normal workspace))
        (.ok .normal, .laidOut workspace context below)
  | branch (depth : Fin context.length) (workspace : Workspace) :
      Matches context below (.ok (.branch depth workspace))
        (.ok (.branch depth), .unwound workspace below context depth)
  | returned (frame : Frame) (results : List Int32) :
      Matches context below (.ok (.returned results))
        (.ok .returned, .laidOut ⟨frame, results⟩ [] below)

namespace Operation

open Stack StackAction

variable (workspace : Workspace) (context : List Interrupted) (below : List Entry)

/-- Returning takes the results off the innermost scope and puts them above the
activation, or leaves the stack alone where the scope has too few. -/
theorem returnFrom_laidOut (resultCount : Nat) :
    returnFrom below.length resultCount (laidOut workspace context below) =
      if workspace.values.length < resultCount then
        (.error (.arityMismatch resultCount workspace.values.length),
          laidOut workspace context below)
      else
        (.ok .returned,
          laidOut ⟨workspace.frame, workspace.values.take resultCount⟩ [] below) := by
  obtain ⟨frame, values⟩ := workspace
  have popped := popValues_laidOut frame values context below resultCount
  by_cases few : values.length < resultCount
  · rw [if_pos few] at popped
    simp [returnFrom, popped, few]
  · rw [if_neg few] at popped
    simp [returnFrom, popped, few]

theorem returnFrom_matches :
    Matches context below workspace.giveBack
      (returnFrom below.length workspace.frame.resultCount (laidOut workspace context below)) := by
  rw [returnFrom_laidOut]
  by_cases few : workspace.values.length < workspace.frame.resultCount
  · simp [Workspace.giveBack, Workspace.split, few]
    exact .error _ _
  · simp [Workspace.giveBack, Workspace.split, few]
    exact .returned _ _

/-- Leaving blocks one after the other ends at the scope that the last of them
interrupted. -/
theorem unwind_laidOut (inner : List Interrupted) (target : Interrupted) :
    unwind inner.length (laidOut workspace (inner ++ target :: context) below) =
      (.ok target.label, laidOut ⟨workspace.frame, target.values⟩ context below) := by
  induction inner generalizing workspace with
  | nil => simp [unwind]
  | cons scope inner ih =>
      simp [unwind, ih]

theorem unwound_append (inner : List Interrupted) (target : Interrupted) :
    unwound workspace below (inner ++ target :: context) inner.length =
      unwound workspace below (target :: context) 0 := by
  induction inner with
  | nil => rfl
  | cons scope inner ih => exact ih

/-- A branch that stays inside the call lands where it should. -/
theorem branch_laidOut (inner : List Interrupted) (target : Interrupted) (resultCount : Nat) :
    branch below.length inner.length resultCount
        (laidOut workspace (inner ++ target :: context) below) =
      (.ok (.branch inner.length),
        unwound workspace below (inner ++ target :: context) inner.length) := by
  have left := unwind_laidOut ⟨workspace.frame, []⟩ context below inner target
  have inside : ¬ inner.length + (context.length + 1) ≤ inner.length := by omega
  rw [unwound_append]
  by_cases isLoop : target.label.isLoop = true
  · simp [branch, inside, left, isLoop, unwound]
  · simp [branch, inside, left, isLoop, unwound]

theorem branch_matches (depth : Nat) :
    Matches context below (workspace.branch depth)
      (branch below.length depth workspace.frame.resultCount
        (laidOut workspace context below)) := by
  by_cases inside : depth < context.length
  · obtain ⟨inner, target, outer, rfl, rfl⟩ : ∃ inner target outer,
        context = inner ++ target :: outer ∧ inner.length = depth :=
      ⟨context.take depth, context[depth], context.drop (depth + 1), by simp, by simp; omega⟩
    rw [branch_laidOut, Workspace.branch, dif_pos inside]
    exact .branch ⟨inner.length, inside⟩ workspace
  · rw [Workspace.branch, dif_neg inside]
    have beyond : context.length ≤ depth := Nat.le_of_not_lt inside
    simpa [branch, beyond] using returnFrom_matches workspace context below

theorem indexOperand_matches (opcode : Keyword) (operand : Option Operand) {stack : Stack}
    {evaluation : Nat → Except RuntimeError (Completion context.length)}
    {operation : Nat → StackAction Ending}
    (matched : ∀ index, Matches context below (evaluation index) (operation index stack)) :
    Matches context below (Workspace.indexOperand opcode operand >>= evaluation)
      ((indexOperand opcode operand >>= operation) stack) := by
  rcases operand with _ | index | literal
  · exact .error _ _
  · exact matched index
  · exact .error _ _

theorem popValue_matches
    {evaluation : Int32 × Workspace → Except RuntimeError (Completion context.length)}
    {operation : Int32 → StackAction Ending}
    (matched : ∀ number values, Matches context below
      (evaluation (number, ⟨workspace.frame, values⟩))
      (operation number (laidOut ⟨workspace.frame, values⟩ context below))) :
    Matches context below (workspace.pop >>= evaluation)
      ((popValue >>= operation) (laidOut workspace context below)) := by
  obtain ⟨frame, values⟩ := workspace
  rw [bind_apply]
  cases values with
  | nil =>
      rw [popValue_laidOut_nil]
      exact .error _ _
  | cons number values =>
      rw [popValue_laidOut_cons]
      exact matched number values

theorem getLocal_matches (index : Nat) :
    Matches context below
      (match workspace.frame.get? index with
        | some number => return .normal (workspace.push number)
        | none => throw (.localOutOfBounds index))
      ((do getLocal below.length index; return .normal : StackAction Ending)
        (laidOut workspace context below)) := by
  cases read : workspace.frame.get? index with
  | none =>
      simp only [getLocal, bind_apply, frame_laidOut, read]
      exact .error _ _
  | some number =>
      simp only [getLocal, bind_apply, frame_laidOut, read]
      exact .normal _

theorem storeLocal_matches (index : Nat) (number : Int32) :
    Matches context below
      (do return .normal (← workspace.store index number))
      ((do storeLocal below.length index number; return .normal : StackAction Ending)
        (laidOut workspace context below)) := by
  cases stored : workspace.frame.set? index number with
  | none =>
      simp only [storeLocal, StackAction.setLocal, bind_apply, frame_laidOut, Workspace.store,
        stored]
      exact .error _ _
  | some changed =>
      simp [storeLocal, StackAction.setLocal, Workspace.store, stored]
      exact .normal _

theorem combine_matches (operation : Int32 → Int32 → Int32) :
    Matches context below
      (do
        let (second, below) ← workspace.pop
        let (first, below) ← below.pop
        return .normal (below.push (operation first second)))
      ((do combine operation; return .normal : StackAction Ending)
        (laidOut workspace context below)) := by
  simp only [combine, bind_assoc]
  apply popValue_matches
  intro second values
  apply popValue_matches
  intro first values
  exact .normal _

theorem binary_matches {opcode : Keyword} {operation : Int32 → Int32 → Int32}
    (found : binary? opcode = some operation) (operand : Option Operand) :
    Matches context below (workspace.perform opcode operand)
      (perform below.length opcode operand (laidOut workspace context below)) := by
  have combined := combine_matches workspace context below operation
  cases opcode <;> simp only [binary?, reduceCtorEq, Option.some.injEq] at found <;>
    subst found <;> exact combined

theorem branchIf_matches (depth : Nat) :
    Matches context below
      (do
        let (condition, below) ← workspace.pop
        if condition = 0 then return .normal below
        else below.branch depth)
      (branchIf below.length depth workspace.frame.resultCount
        (laidOut workspace context below)) := by
  apply popValue_matches
  intro condition values
  by_cases zero : condition = 0
  · simp only [zero]
    exact .normal _
  · simp only [if_neg zero]
    exact branch_matches ⟨workspace.frame, values⟩ context below depth

theorem teeLocal_matches (index : Nat) :
    Matches context below
      (do
        let (number, _) ← workspace.pop
        return .normal (← workspace.store index number))
      ((do teeLocal below.length index; return .normal : StackAction Ending)
        (laidOut workspace context below)) := by
  obtain ⟨frame, values⟩ := workspace
  cases values with
  | nil =>
      simp only [teeLocal, bind_apply, popValue_laidOut_nil]
      exact .error _ _
  | cons number values =>
      have stored := storeLocal_matches ⟨frame, number :: values⟩ context below index number
      simp only [teeLocal, bind_apply, popValue_laidOut_cons, pushValue_apply,
        push_value_laidOut, Workspace.push] at stored ⊢
      exact stored

/-- An instruction other than a call, a block or a loop does to the stack of a
call what it does to its workspace. -/
theorem perform_matches (opcode : Keyword) (operand : Option Operand) :
    Matches context below (workspace.perform opcode operand)
      (perform below.length opcode operand (laidOut workspace context below)) := by
  cases opcode with
  | localGet =>
      apply indexOperand_matches
      exact getLocal_matches workspace context below
  | localSet =>
      apply indexOperand_matches
      intro index
      rw [setLocal, bind_assoc]
      apply popValue_matches
      intro number values
      exact storeLocal_matches _ context below index number
  | localTee =>
      apply indexOperand_matches
      exact teeLocal_matches workspace context below
  | i32Const =>
      rcases operand with _ | index | literal
      · exact .error _ _
      · exact .error _ _
      · exact .normal _
  | i32Eqz =>
      simp only [perform, isZero, bind_assoc]
      apply popValue_matches
      intro number values
      exact .normal _
  | drop =>
      simp only [perform, drop, bind_assoc]
      apply popValue_matches
      intro number values
      exact .normal _
  | nop => exact .normal _
  | br =>
      simp only [perform, frame_bind_laidOut]
      apply indexOperand_matches
      exact branch_matches workspace context below
  | brIf =>
      simp only [perform, frame_bind_laidOut]
      apply indexOperand_matches
      exact branchIf_matches workspace context below
  | functionReturn =>
      simp only [perform, frame_bind_laidOut]
      exact returnFrom_matches workspace context below
  | i32Add | i32Sub | i32And | i32Or | i32Eq | i32LtS | i32GtU | i32GeS =>
      exact binary_matches workspace context below rfl operand
  | _ => exact .error _ _

end Operation

end WatMachine
