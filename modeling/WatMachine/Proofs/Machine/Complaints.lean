import WatMachine.Proofs.Grammar.References
import WatMachine.Proofs.Machine.Refinement

/-!
# Why evaluation fails

An error of evaluation is about what a call asks for or meets, functions,
values, variables and the limit of calls, or it is a complaint about an
instruction as it is written: its operand is missing, or the instruction is
not executed at all.  So which complaints a program can end with is read off the instructions
that occur in its functions.
-/

namespace WatMachine

namespace Keyword

/-- Whether an instruction works on an index, its operand. -/
def takesIndex : Keyword → Bool
  | call | localGet | localSet | localTee | br | brIf => true
  | _ => false

/-- Whether an instruction, other than a block or loop, is executed. -/
def isExecuted : Keyword → Bool
  | call | localGet | localSet | localTee | br | brIf | functionReturn | nop | drop | i32Const
  | i32Add | i32Sub | i32And | i32Or | i32Eqz | i32Eq | i32LtS | i32GtU | i32GeS => true
  | _ => false

end Keyword

namespace RuntimeError

/-- Whether an error is about what a call asks for or meets while it runs. -/
def isSituational : RuntimeError → Bool
  | unimplementedInstruction _ | missingOperand _ | invalidLabel _ | corruptStack _ => false
  | _ => true

end RuntimeError

/-- The errors about an instruction as it is written, whatever it works on. -/
inductive Complaint (opcode : Keyword) (operand : Option Operand) : RuntimeError → Prop where
  | index (takes : opcode.takesIndex = true) (lacks : ∀ value, operand ≠ some (.index value)) :
      Complaint opcode operand (.missingOperand opcode)
  | literal (constant : opcode = .i32Const) (lacks : ∀ value, operand ≠ some (.literal value)) :
      Complaint opcode operand (.missingOperand opcode)
  | unimplemented (skipped : opcode.isExecuted = false) :
      Complaint opcode operand (.unimplementedInstruction opcode)

/-- Whether a result is a value or one of some errors. -/
def FailsOnlyWith {α : Type} (errors : RuntimeError → Prop) (result : Except RuntimeError α) :
    Prop :=
  ∀ error, result = .error error → errors error

namespace FailsOnlyWith

variable {α β : Type} {errors : RuntimeError → Prop}

theorem ok (value : α) : FailsOnlyWith errors (.ok value) :=
  nofun

theorem error {error : RuntimeError} (listed : errors error) :
    FailsOnlyWith errors (.error error : Except RuntimeError α) := by
  rintro _ ⟨⟩
  exact listed

theorem bind {first : Except RuntimeError α} {next : α → Except RuntimeError β}
    (fails : FailsOnlyWith errors first) (rest : ∀ value, FailsOnlyWith errors (next value)) :
    FailsOnlyWith errors (first >>= next) := by
  cases first with
  | error error => exact .error (fails error rfl)
  | ok value => exact rest value

theorem map {result : Except RuntimeError α} (fails : FailsOnlyWith errors result)
    (change : α → β) : FailsOnlyWith errors (result.map change) := by
  cases result with
  | error error => exact .error (fails error rfl)
  | ok value => exact .ok _

end FailsOnlyWith

/-- Whether some errors include every complaint about the instructions that
occur in a body. -/
def Covers (errors : RuntimeError → Prop) (code : List Instruction) : Prop :=
  ∀ opcode operand span error, Occurs (.plain opcode operand span) code →
    Complaint opcode operand error → errors error

theorem Covers.of_cons {errors : RuntimeError → Prop} {first : Instruction}
    {rest : List Instruction} (covers : Covers errors (first :: rest)) :
    Covers errors [first] ∧ Covers errors rest := by
  constructor
  · intro opcode operand span error occurs
    exact covers opcode operand span error (occurs.mono (by simp))
  · intro opcode operand span error occurs
    exact covers opcode operand span error (occurs.mono (List.subset_cons_self first rest))

/-- The complaints about a block are those about its body. -/
theorem covers_structured {errors : RuntimeError → Prop} {kind : BlockKind}
    {label : Option String} {body : List Instruction} {place : Source.Span} :
    Covers errors [.structured kind label body place] ↔ Covers errors body := by
  constructor
  · intro covers opcode operand span error occurs
    exact covers opcode operand span error (.inside List.mem_cons_self occurs)
  · intro covers opcode operand span error occurs
    exact covers opcode operand span error occurs.of_singleton_structured

/-- Whether some errors include all that the calls of a program can meet and
every complaint about its functions. -/
structure Program.Admits (program : Program) (errors : RuntimeError → Prop) : Prop where
  situational : ∀ error, error.isSituational = true → errors error
  bodies : ∀ index function, program.definition index = .ok function →
    Covers errors function.body

section Situations

variable {errors : RuntimeError → Prop}
  (situational : ∀ error, error.isSituational = true → errors error)

include situational

namespace Workspace

variable (workspace : Workspace) {opcode : Keyword} {operand : Option Operand}

theorem split_failsOnlyWith (count : Nat) (values : List Int32) :
    FailsOnlyWith errors (split count values) := by
  unfold split
  split
  · exact .error (situational _ rfl)
  · exact .ok _

theorem pop_failsOnlyWith : FailsOnlyWith errors workspace.pop := by
  unfold pop
  split
  · exact .ok _
  · exact .error (situational _ rfl)

theorem store_failsOnlyWith (index : Nat) (number : Int32) :
    FailsOnlyWith errors (workspace.store index number) := by
  unfold store
  split
  · exact .ok _
  · exact .error (situational _ rfl)

theorem giveBack_failsOnlyWith (nesting : Nat) :
    FailsOnlyWith errors (workspace.giveBack : Except RuntimeError (Completion nesting)) :=
  .bind (split_failsOnlyWith situational _ _) fun _ => .ok _

theorem branch_failsOnlyWith (nesting depth : Nat) :
    FailsOnlyWith errors (workspace.branch depth : Except RuntimeError (Completion nesting)) := by
  unfold branch
  split
  · exact .ok _
  · exact giveBack_failsOnlyWith situational _ _

omit situational in
theorem indexOperand_failsOnlyWith (takes : opcode.takesIndex = true)
    (complaints : ∀ error, Complaint opcode operand error → errors error) :
    FailsOnlyWith errors (indexOperand opcode operand) := by
  unfold indexOperand
  split
  · exact .ok _
  · rename_i lacks
    exact .error (complaints _ (.index takes lacks))

omit situational in
theorem literalOperand_failsOnlyWith (constant : opcode = .i32Const)
    (complaints : ∀ error, Complaint opcode operand error → errors error) :
    FailsOnlyWith errors (literalOperand opcode operand) := by
  unfold literalOperand
  split
  · exact .ok _
  · rename_i lacks
    exact .error (complaints _ (.literal constant lacks))

/-- An instruction that is no call fails for what it meets, or for how it is
written. -/
theorem perform_failsOnlyWith (nesting : Nat) (other : opcode ≠ .call)
    (complaints : ∀ error, Complaint opcode operand error → errors error) :
    FailsOnlyWith errors
      (workspace.perform opcode operand : Except RuntimeError (Completion nesting)) := by
  have pops (workspace : Workspace) : FailsOnlyWith errors workspace.pop :=
    pop_failsOnlyWith situational workspace
  cases opcode with
  | call => exact absurd rfl other
  | localGet =>
      refine .bind (indexOperand_failsOnlyWith rfl complaints) fun index => ?_
      cases workspace.frame.get? index with
      | none => exact .error (situational _ rfl)
      | some number => exact .ok _
  | localSet | localTee =>
      exact .bind (indexOperand_failsOnlyWith rfl complaints) fun index => .bind (pops _) fun _ =>
        .bind (store_failsOnlyWith situational _ _ _) fun _ => .ok _
  | i32Const => exact .bind (literalOperand_failsOnlyWith rfl complaints) fun _ => .ok _
  | i32Eqz | drop => exact .bind (pops _) fun _ => .ok _
  | nop => exact .ok _
  | br =>
      exact .bind (indexOperand_failsOnlyWith rfl complaints) fun _ =>
        branch_failsOnlyWith situational _ _ _
  | brIf =>
      refine .bind (indexOperand_failsOnlyWith rfl complaints) fun _ => .bind (pops _) fun _ => ?_
      dsimp only
      split
      · exact .ok _
      · exact branch_failsOnlyWith situational _ _ _
  | functionReturn => exact giveBack_failsOnlyWith situational _ _
  | i32Add | i32Sub | i32And | i32Or | i32Eq | i32LtS | i32GtU | i32GeS =>
      exact .bind (pops _) fun _ => .bind (pops _) fun _ => .ok _
  | _ => exact .error (complaints _ (.unimplemented rfl))

end Workspace

theorem Program.callee_failsOnlyWith (program : Program) (index : Nat) :
    FailsOnlyWith errors (program.callee index) := by
  unfold Program.callee
  split
  · exact .ok _
  · exact .error (situational _ rfl)

namespace Evaluation

theorem enter_failsOnlyWith (program : Program) (depth index : Nat) (values : List Int32) :
    FailsOnlyWith errors (enter program depth index values) := by
  unfold enter
  split
  · exact .error (situational _ rfl)
  · refine .bind (.bind (program.callee_failsOnlyWith situational index) fun callee => ?_) fun _ =>
      .bind (Workspace.split_failsOnlyWith situational _ _) fun _ => .ok _
    split
    · exact .ok _
    · exact .error (situational _ rfl)

theorem leave_failsOnlyWith (resultCount : Nat) (below : List Int32) (completion : Completion 0) :
    FailsOnlyWith errors (leave resultCount below completion) := by
  match completion with
  | .normal workspace =>
      exact .bind (Workspace.split_failsOnlyWith situational _ _) fun _ => .ok _
  | .returned results => exact .ok _

end Evaluation

end Situations

namespace Evaluation

variable {errors : RuntimeError → Prop}

/-- Whether a step of evaluation, if it ends, ends with a value or one of some
errors. -/
def EndsOnlyWith {α : Type} (errors : RuntimeError → Prop) (step : Evaluation α) : Prop :=
  ∀ result, step.run = some result → FailsOnlyWith errors result

theorem EndsOnlyWith.lift {α : Type} {result : Except RuntimeError α}
    (fails : FailsOnlyWith errors result) : EndsOnlyWith errors (liftM result) := by
  rintro _ ⟨⟩
  exact fails

theorem EndsOnlyWith.bind {α β : Type} {step : Evaluation α} {next : α → Evaluation β}
    (first : EndsOnlyWith errors step) (rest : ∀ value, step.run = some (.ok value) →
      EndsOnlyWith errors (next value)) : EndsOnlyWith errors (step >>= next) := by
  intro result ended
  obtain ⟨error, failed, rfl⟩ | ⟨value, begun, ended⟩ := bind_eq_some.mp ended
  · exact .error (first _ failed error rfl)
  · exact rest value begun result ended

/-- A call, and evaluation of a body that is covered, ends with no error but
the admitted ones. -/
theorem endsOnlyWith {program : Program} (admits : program.Admits errors) (fuel : Nat) :
    (∀ depth index values, EndsOnlyWith errors (call program fuel depth index values)) ∧
    (∀ depth nesting instructions workspace, Covers errors instructions →
      EndsOnlyWith errors (sequence program fuel depth nesting instructions workspace)) ∧
    (∀ depth nesting code workspace, Covers errors [code] →
      EndsOnlyWith errors (instruction program fuel depth nesting code workspace)) := by
  induction fuel with
  | zero =>
      refine ⟨?_, ?_, ?_⟩ <;> intros <;> intro result ended <;> cases ended
  | succ fuel ih =>
      obtain ⟨callIH, sequenceIH, instructionIH⟩ := ih
      refine ⟨?_, ?_, ?_⟩
      · intro depth index values
        refine .bind (.lift (enter_failsOnlyWith admits.situational _ _ _ _)) ?_
        rintro ⟨function, frame, below⟩ entered
        obtain ⟨-, defined, -⟩ := exists_arguments_of_enter (Option.some.inj entered)
        exact .bind (sequenceIH _ _ _ _ (admits.bodies index function defined)) fun _ _ =>
          .lift (leave_failsOnlyWith admits.situational _ _ _)
      · intro depth nesting instructions workspace covers
        cases instructions with
        | nil => exact .lift (.ok _)
        | cons first rest =>
            obtain ⟨here, after⟩ := covers.of_cons
            refine .bind (instructionIH _ _ _ _ here) fun completion _ => ?_
            cases completion with
            | normal workspace => exact sequenceIH _ _ _ _ after
            | branch depth workspace => exact .lift (.ok _)
            | returned results => exact .lift (.ok _)
      · intro depth nesting code workspace covers
        cases code with
        | structured kind label body span =>
            have within : Covers errors body := covers_structured.mp covers
            rw [instruction_structured]
            refine .bind (sequenceIH _ _ _ _ within) fun completion _ => ?_
            rcases restarts_or_closes program fuel depth nesting kind label body span
              workspace.values completion with ⟨inside, inner, rfl, again⟩ | closes
            · -- A loop that starts again has the body that it had.
              rw [again]
              exact instructionIH _ _ _ _ (covers_structured.mpr within)
            · rw [closes]
              exact .lift (.ok _)
        | plain opcode operand span =>
            have complaints : ∀ error, Complaint opcode operand error → errors error :=
              fun error => covers opcode operand span error (.here List.mem_cons_self)
            by_cases isCall : opcode = .call
            · subst isCall
              exact .bind (.lift (Workspace.indexOperand_failsOnlyWith rfl complaints)) fun _ _ =>
                .bind (callIH _ _ _) fun _ _ => .lift (.ok _)
            · rw [instruction_of_ne_call program isCall]
              exact .lift (Workspace.perform_failsOnlyWith admits.situational _ _ isCall complaints)

end Evaluation

/-- A call from outside ends with no error but the admitted ones. -/
theorem Program.invoke_failsOnlyWith {errors : RuntimeError → Prop} {program : Program}
    {fuel index : Nat} {arguments : List Int32} {machine after : Machine}
    {outcome : Except RuntimeError (List Int32)} (admits : program.Admits errors)
    (ended : program.invoke fuel index arguments machine = some (outcome, after)) :
    FailsOnlyWith errors outcome := by
  rcases invoke_cases ended with ⟨error, missing, rfl, -⟩ |
    ⟨callee, -, ⟨-, -, rfl⟩ | ⟨-, -, result, evaluates, rfl⟩⟩
  · exact .error (program.callee_failsOnlyWith admits.situational index error missing)
  · exact .error (admits.situational _ rfl)
  · exact ((Evaluation.endsOnlyWith admits fuel).1 _ _ _ _ evaluates).map List.reverse

end WatMachine
