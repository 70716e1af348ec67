import WatMachine.Proofs.Machine.Evaluation

/-!
# The frame of a call keeps its shape

The instructions of a function change what its variables hold, and nothing
else about its frame.  A call that returns early does so with as many values
as its function has results.
-/

namespace WatMachine

namespace Frame

/-- Whether a frame has the variables, arguments and results of a template,
whatever its variables hold. -/
structure Fits (template frame : Frame) : Prop where
  locals : frame.locals.length = template.locals.length
  arguments : frame.argumentCount = template.argumentCount
  results : frame.results = template.results

theorem length_storeFirst (slots : List LocalVariable) (values : List Int32) :
    (storeFirst slots values).length = slots.length := by
  induction slots generalizing values with
  | nil => cases values <;> rfl
  | cons slot slots ih =>
      cases values with
      | nil => rfl
      | cons value values => simp [storeFirst, ih]

theorem fits_withArguments (template : Frame) (arguments : List Int32) :
    template.Fits (template.withArguments arguments) :=
  ⟨length_storeFirst _ _, rfl, rfl⟩

theorem Fits.set? {template frame changed : Frame} {index : Nat} {value : Int32}
    (fits : template.Fits frame) (stored : frame.set? index value = some changed) :
    template.Fits changed := by
  unfold Frame.set? at stored
  split at stored
  · obtain rfl := Option.some.inj stored
    exact ⟨by simpa using fits.locals, fits.arguments, fits.results⟩
  · simp at stored

end Frame

namespace Completion

/-- Whether instructions of a function ended with its frame, or returned as
many values as it has results. -/
def Fits (template : Frame) {nesting : Nat} : Completion nesting → Prop
  | normal workspace => template.Fits workspace.frame
  | branch _ workspace => template.Fits workspace.frame
  | returned results => results.length = template.resultCount

theorem Fits.close {template : Frame} {nesting : Nat} {completion : Completion (nesting + 1)}
    (fits : completion.Fits template) (outer : List Int32) :
    (completion.close outer).Fits template := by
  match completion with
  | .normal _ => exact fits
  | .branch ⟨0, _⟩ _ => exact fits
  | .branch ⟨_ + 1, _⟩ _ => exact fits
  | .returned _ => exact fits

end Completion

namespace Workspace

variable {template : Frame} {workspace : Workspace} {nesting : Nat}

theorem giveBack_fits {completion : Completion nesting} (fits : template.Fits workspace.frame)
    (ended : workspace.giveBack = .ok completion) : completion.Fits template := by
  obtain ⟨⟨results, below⟩, taken, ended⟩ := bind_eq_ok.mp ended
  obtain rfl := Except.ok.inj ended
  unfold split at taken
  split at taken
  · cases taken
  · rename_i enough
    cases taken
    simp only [Frame.resultCount, fits.results] at enough ⊢
    simp only [Completion.Fits, Frame.resultCount, List.length_take]
    omega

theorem branch_fits {completion : Completion nesting} {depth : Nat}
    (fits : template.Fits workspace.frame)
    (ended : workspace.branch depth = .ok completion) : completion.Fits template := by
  unfold branch at ended
  split at ended
  · obtain rfl := Except.ok.inj ended
    exact fits
  · exact giveBack_fits fits ended

theorem pop_fits {number : Int32} {below : Workspace} (fits : template.Fits workspace.frame)
    (popped : workspace.pop = .ok (number, below)) : template.Fits below.frame := by
  unfold pop at popped
  split at popped <;> cases popped
  exact fits

theorem store_fits {stored : Workspace} {index : Nat} {number : Int32}
    (fits : template.Fits workspace.frame)
    (done : workspace.store index number = .ok stored) : template.Fits stored.frame := by
  unfold store at done
  split at done
  · rename_i changed
    cases done
    exact fits.set? changed
  · cases done

theorem perform_fits {opcode : Keyword} {operand : Option Operand}
    {completion : Completion nesting} (fits : template.Fits workspace.frame)
    (ended : workspace.perform opcode operand = .ok completion) : completion.Fits template := by
  cases opcode with
  | localGet =>
      obtain ⟨index, -, ended⟩ := bind_eq_ok.mp ended
      cases read : workspace.frame.get? index with
      | none =>
          simp only [read] at ended
          cases ended
      | some number =>
          simp only [read] at ended
          cases ended
          exact fits
  | localSet =>
      simp only [perform, bind_eq_ok] at ended
      obtain ⟨index, -, ⟨number, below⟩, popped, stored, done, ended⟩ := ended
      cases ended
      exact store_fits (pop_fits fits popped) done
  | localTee =>
      simp only [perform, bind_eq_ok] at ended
      obtain ⟨index, -, ⟨number, below⟩, popped, stored, done, ended⟩ := ended
      cases ended
      exact store_fits fits done
  | i32Const =>
      obtain ⟨literal, -, ended⟩ := bind_eq_ok.mp ended
      cases ended
      exact fits
  | i32Eqz =>
      obtain ⟨⟨number, below⟩, popped, ended⟩ := bind_eq_ok.mp ended
      cases ended
      have kept := pop_fits fits popped
      exact kept
  | drop =>
      obtain ⟨⟨number, below⟩, popped, ended⟩ := bind_eq_ok.mp ended
      cases ended
      have kept := pop_fits fits popped
      exact kept
  | nop =>
      cases ended
      exact fits
  | br =>
      obtain ⟨depth, -, ended⟩ := bind_eq_ok.mp ended
      exact branch_fits fits ended
  | brIf =>
      simp only [perform, bind_eq_ok] at ended
      obtain ⟨depth, -, ⟨condition, below⟩, popped, ended⟩ := ended
      have kept := pop_fits fits popped
      split at ended
      · cases ended
        exact kept
      · exact branch_fits kept ended
  | functionReturn => exact giveBack_fits fits ended
  | i32Add | i32Sub | i32And | i32Or | i32Eq | i32LtS | i32GtU | i32GeS =>
      obtain ⟨⟨second, below⟩, popped, ended⟩ := bind_eq_ok.mp ended
      obtain ⟨⟨first, lower⟩, poppedNext, ended⟩ := bind_eq_ok.mp ended
      cases ended
      have kept := pop_fits (pop_fits fits popped) poppedNext
      exact kept
  | _ => cases ended

end Workspace

namespace Evaluation

theorem enter_fits {program : Program} {depth index : Nat} {values below : List Int32}
    {function : FunctionDefinition} {frame : Frame}
    (entered : enter program depth index values = .ok (function, frame, below)) :
    function.frame.Fits frame := by
  obtain ⟨-, -, arguments, -, -, rfl⟩ := exists_arguments_of_enter entered
  exact Frame.fits_withArguments _ _

/-- Instructions keep the shape of the frame of their call. -/
theorem fits_of_run (program : Program) (template : Frame) (fuel : Nat) :
    (∀ depth nesting instructions workspace completion, template.Fits workspace.frame →
      (sequence program fuel depth nesting instructions workspace).run =
        some (.ok completion) → completion.Fits template) ∧
    (∀ depth nesting code workspace completion, template.Fits workspace.frame →
      (instruction program fuel depth nesting code workspace).run =
        some (.ok completion) → completion.Fits template) := by
  induction fuel with
  | zero =>
      constructor
      · intro depth nesting instructions workspace completion fits ended
        cases ended
      · intro depth nesting code workspace completion fits ended
        cases ended
  | succ fuel ih =>
      obtain ⟨sequenceIH, instructionIH⟩ := ih
      constructor
      · intro depth nesting instructions workspace completion fits ended
        cases instructions with
        | nil =>
            cases ended
            exact fits
        | cons first rest =>
            obtain ⟨error, -, failed⟩ | ⟨middle, begun, ended⟩ := bind_eq_some.mp ended
            · cases failed
            · have kept := instructionIH _ _ _ _ _ fits begun
              cases middle with
              | normal workspace => exact sequenceIH _ _ _ _ _ kept ended
              | branch depth workspace =>
                  cases ended
                  exact kept
              | returned results =>
                  cases ended
                  exact kept
      · intro depth nesting code workspace completion fits ended
        cases code with
        | structured kind label body span =>
            rw [instruction_structured] at ended
            obtain ⟨error, -, failed⟩ | ⟨middle, begun, ended⟩ := bind_eq_some.mp ended
            · cases failed
            · have kept := sequenceIH _ _ _ ⟨workspace.frame, []⟩ _ fits begun
              rcases restarts_or_closes program fuel depth nesting kind label body span
                workspace.values middle with ⟨inside, inner, rfl, again⟩ | closes
              · rw [again] at ended
                exact instructionIH _ _ _ ⟨_, workspace.values⟩ _ kept ended
              · rw [closes] at ended
                cases ended
                exact kept.close _
        | plain opcode operand span =>
            by_cases isCall : opcode = .call
            · subst isCall
              obtain ⟨error, -, failed⟩ | ⟨index, -, ended⟩ := bind_eq_some.mp ended
              · cases failed
              · obtain ⟨error, -, failed⟩ | ⟨values, -, ended⟩ := bind_eq_some.mp ended
                · cases failed
                · cases ended
                  exact fits
            · rw [instruction_of_ne_call program isCall] at ended
              exact Workspace.perform_fits fits (Option.some.inj ended)

end Evaluation

end WatMachine
