import WatMachine.Proofs.Machine.Steps

/-!
# Errors of actions on the stack

An action on the stack knows neither the functions of a program nor how many
calls are active.  So its errors are about values, variables, operands and the
stack itself, and never about functions, exports or the limit of calls.  A step
of execution adds to them the errors of what it looks up.
-/

namespace WatMachine

variable {α β : Type}

namespace RuntimeError

/-- Whether an error can come from an action on the stack. -/
def isLocal : RuntimeError → Bool
  | stackUnderflow | arityMismatch _ _ | localOutOfBounds _ | unimplementedInstruction _
  | missingOperand _ | corruptStack _ => true
  | unknownFunction _ | unknownExport _ | exportNotFunction _ | unlinkedImport _ _
  | invalidLabel _ | callStackOverflow _ => false

end RuntimeError

namespace StackAction

/-- Whether all errors of an action are about values, variables, operands and
the stack. -/
def FailsLocally (action : StackAction α) : Prop :=
  ∀ stack error after, action stack = (.error error, after) → error.isLocal = true

theorem FailsLocally.pure (value : α) : FailsLocally (pure value) := by
  intro stack error after failed
  cases failed

theorem FailsLocally.throw {error : RuntimeError} (isLocal : error.isLocal = true) :
    FailsLocally (throw error : StackAction α) := by
  intro stack found after failed
  cases failed
  exact isLocal

theorem FailsLocally.get : FailsLocally get := by
  intro stack error after failed
  cases failed

theorem FailsLocally.set (stack : Stack) : FailsLocally (set stack) := by
  intro before error after failed
  cases failed

theorem FailsLocally.modify (change : Stack → Stack) :
    FailsLocally (modify change : StackAction PUnit) := by
  intro before error after failed
  cases failed

theorem FailsLocally.bind {action : StackAction α} {next : α → StackAction β}
    (first : FailsLocally action) (rest : ∀ value, FailsLocally (next value)) :
    FailsLocally (action >>= next) := by
  intro stack error after failed
  rw [bind_apply] at failed
  rcases ended : action stack with ⟨found | value, middle⟩
  · rw [ended] at failed
    cases failed
    exact first _ _ _ ended
  · rw [ended] at failed
    exact rest value middle error after failed

theorem popValue_failsLocally : FailsLocally popValue := by
  refine .bind .get fun stack => ?_
  split
  · exact .bind (.set _) fun _ => .pure _
  · exact .throw rfl

theorem popValues_failsLocally (count : Nat) : FailsLocally (popValues count) := by
  refine .bind .get fun stack => ?_
  dsimp only
  split
  · exact .throw rfl
  · exact .bind (.set _) fun _ => .pure _

theorem drainScope_failsLocally : FailsLocally drainScope :=
  .bind .get fun _ => .bind (.set _) fun _ => .pure _

theorem popLabel_failsLocally : FailsLocally popLabel := by
  refine .bind .get fun stack => .bind (.set _) fun _ => ?_
  split
  · exact .pure _
  · exact .throw rfl

theorem popActivation_failsLocally : FailsLocally popActivation := by
  refine .bind .get fun stack => .bind (.set _) fun _ => ?_
  split
  · exact .pure _
  · exact .throw rfl

theorem frame_failsLocally (base : Nat) : FailsLocally (frame base) := by
  refine .bind .get fun stack => ?_
  split
  · exact .pure _
  · exact .throw rfl

theorem setLocal_failsLocally (base index : Nat) (number : Int32) :
    FailsLocally (setLocal base index number) := by
  refine .bind (frame_failsLocally base) fun frame => ?_
  split
  · exact .bind (.modify _) fun _ => .pure _
  · exact .pure _

end StackAction

namespace Operation

open StackAction

theorem indexOperand_failsLocally (opcode : Keyword) (operand : Option Operand) :
    FailsLocally (indexOperand opcode operand) := by
  unfold indexOperand
  split
  · exact .pure _
  · exact .throw rfl

theorem literalOperand_failsLocally (opcode : Keyword) (operand : Option Operand) :
    FailsLocally (literalOperand opcode operand) := by
  unfold literalOperand
  split
  · exact .pure _
  · exact .throw rfl

theorem getLocal_failsLocally (base index : Nat) : FailsLocally (getLocal base index) := by
  refine .bind (frame_failsLocally base) fun frame => ?_
  split
  · exact .modify _
  · exact .throw rfl

theorem storeLocal_failsLocally (base index : Nat) (number : Int32) :
    FailsLocally (storeLocal base index number) := by
  refine .bind (setLocal_failsLocally base index number) fun stored => ?_
  split
  · exact .pure _
  · exact .throw rfl

theorem returnFrom_failsLocally (base resultCount : Nat) :
    FailsLocally (returnFrom base resultCount) :=
  .bind (popValues_failsLocally _) fun _ => .bind (.modify _) fun _ =>
    .bind (.modify _) fun _ => .pure _

theorem unwind_failsLocally (depth : Nat) : FailsLocally (unwind depth) := by
  induction depth with
  | zero => exact .bind drainScope_failsLocally fun _ => popLabel_failsLocally
  | succ depth ih =>
      exact .bind drainScope_failsLocally fun _ => .bind popLabel_failsLocally fun _ => ih

theorem branch_failsLocally (base depth resultCount : Nat) :
    FailsLocally (branch base depth resultCount) := by
  refine .bind .get fun stack => ?_
  split
  · exact returnFrom_failsLocally base resultCount
  · refine .bind drainScope_failsLocally fun carried => ?_
    refine .bind (unwind_failsLocally depth) fun target => ?_
    split
    · exact .bind (.modify _) fun _ => .pure _
    · exact .bind (.modify _) fun _ => .pure _

theorem branchIf_failsLocally (base depth resultCount : Nat) :
    FailsLocally (branchIf base depth resultCount) := by
  refine .bind popValue_failsLocally fun condition => ?_
  split
  · exact .pure _
  · exact branch_failsLocally base depth resultCount

/-- Instructions other than calls, blocks and loops fail with local errors
only. -/
theorem perform_failsLocally (base : Nat) (opcode : Keyword) (operand : Option Operand) :
    FailsLocally (perform base opcode operand) := by
  have index := indexOperand_failsLocally opcode operand
  cases opcode with
  | localGet =>
      exact .bind index fun _ => .bind (getLocal_failsLocally _ _) fun _ => .pure _
  | localSet =>
      exact .bind index fun _ =>
        .bind (.bind popValue_failsLocally fun _ => storeLocal_failsLocally _ _ _) fun _ => .pure _
  | localTee =>
      exact .bind index fun _ =>
        .bind (.bind popValue_failsLocally fun _ => .bind (.modify _) fun _ =>
          storeLocal_failsLocally _ _ _) fun _ => .pure _
  | i32Const =>
      exact .bind (literalOperand_failsLocally _ _) fun _ => .bind (.modify _) fun _ => .pure _
  | i32Eqz =>
      exact .bind (.bind popValue_failsLocally fun _ => .modify _) fun _ => .pure _
  | drop => exact .bind (.bind popValue_failsLocally fun _ => .pure _) fun _ => .pure _
  | nop => exact .pure _
  | br => exact .bind (frame_failsLocally _) fun _ => .bind index fun _ => branch_failsLocally _ _ _
  | brIf =>
      exact .bind (frame_failsLocally _) fun _ => .bind index fun _ => branchIf_failsLocally _ _ _
  | functionReturn => exact .bind (frame_failsLocally _) fun _ => returnFrom_failsLocally _ _
  | i32Add | i32Sub | i32And | i32Or | i32Eq | i32LtS | i32GtU | i32GeS =>
      exact .bind (.bind popValue_failsLocally fun _ => .bind popValue_failsLocally fun _ =>
        .modify _) fun _ => .pure _
  | _ => exact .throw rfl

end Operation

namespace Execution

open StackAction

theorem leave_failsLocally (base resultCount : Nat) : FailsLocally (leave base resultCount) :=
  .bind (popValues_failsLocally _) fun _ => .bind (.modify _) fun _ =>
    .bind popActivation_failsLocally fun _ => .modify _

theorem closeBlock_failsLocally : FailsLocally closeBlock :=
  .bind drainScope_failsLocally fun _ => .bind popLabel_failsLocally fun _ => .modify _

/-- Whether all errors of a step are among some errors. -/
def FailsOnlyWith (errors : RuntimeError → Prop) (step : Execution α) : Prop :=
  ∀ machine error after, step machine = some (.error error, after) → errors error

namespace FailsOnlyWith

variable {errors : RuntimeError → Prop}

theorem pure (value : α) : FailsOnlyWith errors (pure value) := by
  intro machine error after failed
  cases failed

theorem throw {error : RuntimeError} (listed : errors error) :
    FailsOnlyWith errors (throw error : Execution α) := by
  intro machine found after failed
  cases failed
  exact listed

theorem lift {result : Except RuntimeError α}
    (listed : ∀ error, result = .error error → errors error) :
    FailsOnlyWith errors (liftM result : Execution α) := by
  intro machine error after failed
  rw [liftM_apply, Option.some.injEq, Prod.mk.injEq] at failed
  exact listed error failed.1

theorem get : FailsOnlyWith errors get := by
  intro machine error after failed
  cases failed

theorem set (machine : Machine) : FailsOnlyWith errors (set machine) := by
  intro before error after failed
  cases failed

theorem onStack {action : StackAction α} (locally : action.FailsLocally)
    (listed : ∀ error, error.isLocal = true → errors error) :
    FailsOnlyWith errors (onStack action) := by
  intro machine error after failed
  rw [onStack_apply, Option.some.injEq, Prod.mk.injEq] at failed
  exact listed error (locally machine.stack error _ (Prod.ext failed.1 rfl))

theorem bind {step : Execution α} {next : α → Execution β} (first : FailsOnlyWith errors step)
    (rest : ∀ value, FailsOnlyWith errors (next value)) :
    FailsOnlyWith errors (step >>= next) := by
  intro machine error after failed
  rcases bind_eq_some.mp failed with ⟨found, left, failed, same⟩ | ⟨value, left, begun, failed⟩
  · cases same
    exact first machine error after failed
  · exact rest value left error after failed

theorem asCall {step : Execution α} (fails : FailsOnlyWith errors step) :
    FailsOnlyWith errors (asCall step) := by
  intro machine error after failed
  rw [asCall_apply] at failed
  obtain ⟨⟨result, left⟩, ended, same⟩ := Option.map_eq_some_iff.mp failed
  cases same
  exact fails _ error left ended

theorem collect {step : Execution Unit} (fails : FailsOnlyWith errors step) :
    FailsOnlyWith errors (Program.collect step) := by
  intro machine error after failed
  rw [Program.collect_apply] at failed
  rcases ended : step machine with _ | ⟨found | value, left⟩
  · simp [ended] at failed
  · rw [ended] at failed
    cases failed
    exact fails machine error left ended
  · simp [ended, Except.map] at failed

end FailsOnlyWith

end Execution

/-- Whether some errors include all that the execution of a program can fail
with. -/
structure Program.Raises (program : Program) (errors : RuntimeError → Prop) : Prop where
  ofStack : ∀ error, error.isLocal = true → errors error
  ofLookup : ∀ index error, program.definition index = .error error → errors error
  ofLimit : errors (.callStackOverflow program.maxCallDepth)
  ofBranch : ∀ depth, errors (.invalidLabel depth)

namespace Program.Raises

open Execution

variable {program : Program} {errors : RuntimeError → Prop} (raises : program.Raises errors)

include raises

theorem onStack {action : StackAction α} (locally : action.FailsLocally) :
    Execution.FailsOnlyWith errors (onStack action) :=
  .onStack locally raises.ofStack

theorem enter (index : Nat) : Execution.FailsOnlyWith errors (enter program index) := by
  refine .bind .get fun machine => ?_
  split
  · exact .throw raises.ofLimit
  · have found : Execution.FailsOnlyWith errors
        (liftM (program.definition index) : Execution FunctionDefinition) :=
      .lift (raises.ofLookup index)
    exact .bind found fun function =>
      .bind (raises.onStack (StackAction.popValues_failsLocally _)) fun _ =>
        .bind .get fun _ => .bind (raises.onStack (.modify _)) fun _ => .pure _

theorem settle {fuel base : Nat} {kind : BlockKind} {body : List Instruction}
    (again : ∀ rest, Execution.FailsOnlyWith errors (labelled program fuel base kind body rest))
    (ending : Ending) :
    Execution.FailsOnlyWith errors (settle program fuel base kind body ending) := by
  match ending, kind with
  | .normal, _ => exact .bind (raises.onStack closeBlock_failsLocally) fun _ => .pure _
  | .branch 0, .block => exact .pure _
  | .branch 0, .loop =>
      refine .bind .get fun machine => ?_
      cases machine.stack.topLabel? with
      | none => exact .throw (raises.ofStack _ rfl)
      | some label => exact again _
  | .branch (depth + 1), _ => exact .pure _
  | .returned, _ => exact .pure _

/-- Execution fails with nothing else, however deep in it an error comes up. -/
theorem execution (fuel : Nat) :
    (∀ index, Execution.FailsOnlyWith errors (call program fuel index)) ∧
    (∀ base instructions,
      Execution.FailsOnlyWith errors (Execution.sequence program fuel base instructions)) ∧
    (∀ base kind body rest,
      Execution.FailsOnlyWith errors (labelled program fuel base kind body rest)) ∧
    (∀ base code, Execution.FailsOnlyWith errors (instruction program fuel base code)) := by
  induction fuel with
  | zero =>
      refine ⟨?_, ?_, ?_, ?_⟩ <;> intros <;> intro _ _ _ failed <;>
        simp [call, Execution.sequence, labelled, instruction] at failed
  | succ fuel ih =>
      obtain ⟨callIH, sequenceIH, labelledIH, instructionIH⟩ := ih
      refine ⟨?_, ?_, ?_, ?_⟩
      · intro index
        rw [call]
        refine .bind (raises.enter index) ?_
        rintro ⟨function, base⟩
        refine .bind (.asCall (sequenceIH _ _)) fun ending => ?_
        cases ending with
        | branch depth => exact .throw (raises.ofBranch depth)
        | normal | returned => exact raises.onStack (leave_failsLocally _ _)
      · intro base instructions
        cases instructions with
        | nil => exact .pure _
        | cons first rest =>
            rw [sequence_cons]
            refine .bind (instructionIH _ _) fun ending => ?_
            split
            · exact sequenceIH _ _
            · exact .pure _
      · intro base kind body rest
        cases rest with
        | nil =>
            rw [labelled_nil]
            exact raises.settle (labelledIH _ _ _) _
        | cons first rest =>
            rw [labelled_cons]
            refine .bind (instructionIH _ _) fun ending => ?_
            split
            · exact labelledIH _ _ _ _
            · exact raises.settle (labelledIH _ _ _) _
      · intro base code
        cases code with
        | structured kind label body span =>
            exact .bind (raises.onStack (.modify _)) fun _ => labelledIH _ _ _ _
        | plain opcode operand span =>
            rw [instruction]
            split
            · exact .bind (raises.onStack (Operation.indexOperand_failsLocally _ _))
                fun index => .bind (callIH index) fun _ => .pure _
            · exact raises.onStack (Operation.perform_failsLocally _ _ _)

/-- A call from outside adds no error of its own kind. -/
theorem invoke (fuel index : Nat) (arguments : List Int32) :
    Execution.FailsOnlyWith errors (program.invoke fuel index arguments) := by
  have found : Execution.FailsOnlyWith errors
      (liftM (program.callee index) : Execution Callee) := by
    refine .lift fun error failed => raises.ofLookup index error ?_
    rw [definition, failed]
    rfl
  refine .bind found fun callee => ?_
  dsimp only
  split
  · exact .bind (.set _) fun _ => .collect ((raises.execution fuel).1 index)
  · exact .throw (raises.ofStack _ rfl)

end Program.Raises

end WatMachine
