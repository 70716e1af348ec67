import WatMachine.Machine.Session

/-!
# Steps of execution

How actions on the stack and execution steps run one after the other, and
that more fuel never changes the outcome of a step.  The body of a block is
executed under its label like any other sequence; only what follows its end
is particular to the block.
-/

namespace WatMachine

variable {α β : Type}

namespace StackAction

@[simp]
theorem pure_apply (value : α) (stack : Stack) :
    (pure value : StackAction α) stack = (.ok value, stack) :=
  rfl

@[simp]
theorem throw_apply (error : RuntimeError) (stack : Stack) :
    (throw error : StackAction α) stack = (.error error, stack) :=
  rfl

@[simp]
theorem get_apply (stack : Stack) :
    (get : StackAction Stack) stack = (.ok stack, stack) :=
  rfl

@[simp]
theorem set_apply (stack after : Stack) :
    (set after : StackAction PUnit) stack = (.ok ⟨⟩, after) :=
  rfl

@[simp]
theorem modify_apply (change : Stack → Stack) (stack : Stack) :
    (modify change : StackAction PUnit) stack = (.ok ⟨⟩, change stack) :=
  rfl

/-- The second of two actions runs on the stack that the first one leaves,
unless the first one fails. -/
@[simp]
theorem bind_apply (action : StackAction α) (next : α → StackAction β) (stack : Stack) :
    (action >>= next) stack =
      match action stack with
      | (.ok value, after) => next value after
      | (.error error, after) => (.error error, after) := by
  change ExceptT.bindCont next (action stack).1 (action stack).2 = _
  rcases action stack with ⟨error | value, after⟩ <;> rfl

@[simp]
theorem map_apply (change : α → β) (action : StackAction α) (stack : Stack) :
    (change <$> action) stack =
      match action stack with
      | (.ok value, after) => (.ok (change value), after)
      | (.error error, after) => (.error error, after) := by
  rw [← bind_pure_comp, bind_apply]
  rfl

end StackAction

namespace Execution

/-- Every outcome of the first step is one of the second. -/
def Within (first second : Execution α) : Prop :=
  ∀ machine outcome, first machine = some outcome → second machine = some outcome

@[simp]
theorem pure_apply (value : α) (machine : Machine) :
    (pure value : Execution α) machine = some (.ok value, machine) :=
  rfl

@[simp]
theorem throw_apply (error : RuntimeError) (machine : Machine) :
    (throw error : Execution α) machine = some (.error error, machine) :=
  rfl

@[simp]
theorem get_apply (machine : Machine) :
    (get : Execution Machine) machine = some (.ok machine, machine) :=
  rfl

@[simp]
theorem set_apply (machine after : Machine) :
    (set after : Execution PUnit) machine = some (.ok ⟨⟩, after) :=
  rfl

@[simp]
theorem liftM_apply (result : Except RuntimeError α) (machine : Machine) :
    (liftM result : Execution α) machine = some (result, machine) :=
  rfl

@[simp]
theorem outOfFuel_apply (machine : Machine) :
    (outOfFuel : Execution α) machine = none :=
  rfl

@[simp]
theorem onStack_apply (action : StackAction α) (machine : Machine) :
    onStack action machine =
      some ((action machine.stack).1, { machine with stack := (action machine.stack).2 }) :=
  rfl

theorem asCall_apply (step : Execution α) (machine : Machine) :
    asCall step machine =
      (step { machine with depth := machine.depth + 1 }).map fun outcome =>
        (outcome.1, { outcome.2 with depth := outcome.2.depth - 1 }) := by
  unfold asCall
  rcases step { machine with depth := machine.depth + 1 } with _ | ⟨result, after⟩ <;> rfl

/-- The second of two steps runs from the state that the first one leaves,
unless the first one fails or does not end. -/
@[simp]
theorem bind_apply (step : Execution α) (next : α → Execution β) (machine : Machine) :
    (step >>= next) machine =
      match step machine with
      | some (.ok value, after) => next value after
      | some (.error error, after) => some (.error error, after)
      | none => none := by
  change (step machine).bind _ = _
  rcases step machine with _ | ⟨error | value, after⟩ <;> rfl

/-- Two steps end in an outcome if the first one fails in it, or the second
one ends in it after the first. -/
theorem bind_eq_some {step : Execution α} {next : α → Execution β} {machine : Machine}
    {outcome : Except RuntimeError β × Machine} :
    (step >>= next) machine = some outcome ↔
      (∃ error after, step machine = some (.error error, after) ∧
        outcome = (.error error, after)) ∨
      ∃ value after, step machine = some (.ok value, after) ∧
        next value after = some outcome := by
  rw [bind_apply]
  rcases step machine with _ | ⟨error | value, after⟩
  · simp
  · simp [and_assoc, eq_comm]
  · simp [and_assoc]

theorem Within.refl (step : Execution α) : Within step step :=
  fun _ _ ended => ended

theorem Within.bind {first second : Execution α} {next after : α → Execution β}
    (step : Within first second) (rest : ∀ value, Within (next value) (after value)) :
    Within (first >>= next) (second >>= after) := by
  intro machine outcome ended
  rcases bind_eq_some.mp ended with ⟨error, left, failed, same⟩ | ⟨value, left, begun, ended⟩
  · exact bind_eq_some.mpr (.inl ⟨error, left, step _ _ failed, same⟩)
  · exact bind_eq_some.mpr (.inr ⟨value, left, step _ _ begun, rest value _ _ ended⟩)

theorem Within.asCall {first second : Execution α} (step : Within first second) :
    Within (asCall first) (asCall second) := by
  intro machine outcome ended
  rw [asCall_apply] at ended ⊢
  obtain ⟨inner, begun, same⟩ := Option.map_eq_some_iff.mp ended
  exact Option.map_eq_some_iff.mpr ⟨inner, step _ _ begun, same⟩

/-- What one more unit of fuel keeps, any amount more keeps. -/
theorem Within.of_le {steps : Nat → Execution α}
    (grows : ∀ fuel, Within (steps fuel) (steps (fuel + 1))) {fuel more : Nat}
    (enough : fuel ≤ more) : Within (steps fuel) (steps more) := by
  induction enough with
  | refl => exact Within.refl _
  | step _ ih =>
      intro machine outcome ended
      exact grows _ machine outcome (ih machine outcome ended)

variable (program : Program)

/-- What a block or loop makes of the ending of its body. -/
def settle (fuel base : Nat) (kind : BlockKind) (body : List Instruction) :
    Ending → Execution Ending
  | .normal => do
      onStack closeBlock
      return .normal
  | .branch 0 =>
      match kind with
      | .block => return .normal
      | .loop => do
          match (← get).stack.topLabel? with
          | some label => labelled program fuel base .loop body (body.drop label.resume)
          | none => throw (.corruptStack .loopLabelMissing)
  | .branch (depth + 1) => return .branch depth
  | .returned => return .returned

theorem labelled_nil (fuel base : Nat) (kind : BlockKind) (body : List Instruction) :
    labelled program (fuel + 1) base kind body [] =
      settle program fuel base kind body .normal := by
  cases kind <;> rfl

theorem labelled_cons (fuel base : Nat) (kind : BlockKind) (body rest : List Instruction)
    (first : Instruction) :
    labelled program (fuel + 1) base kind body (first :: rest) =
      instruction program fuel base first >>= fun ending =>
        if ending = .normal then labelled program fuel base kind body rest
        else settle program fuel base kind body ending := by
  cases kind <;>
  · rw [labelled]
    congr
    funext ending
    rcases ending with _ | (_ | _) | _ <;> rfl

theorem sequence_cons (fuel base : Nat) (first : Instruction) (rest : List Instruction) :
    sequence program (fuel + 1) base (first :: rest) =
      instruction program fuel base first >>= fun ending =>
        if ending = .normal then sequence program fuel base rest else return ending := by
  rw [sequence]
  congr
  funext ending
  cases ending <;> rfl

theorem instruction_call (fuel base index : Nat) (span : Source.Span) :
    instruction program (fuel + 1) base (.plain .call (some (.index index)) span) =
      call program fuel index >>= fun _ => pure .normal :=
  rfl

theorem settle_within {first second : Nat} (base : Nat) (kind : BlockKind)
    (body : List Instruction)
    (grows : ∀ rest, Within (labelled program first base kind body rest)
      (labelled program second base kind body rest)) (ending : Ending) :
    Within (settle program first base kind body ending)
      (settle program second base kind body ending) := by
  match ending, kind with
  | .normal, _ => exact Within.refl _
  | .branch 0, .block => exact Within.refl _
  | .branch 0, .loop =>
      refine Within.bind (Within.refl _) ?_
      intro machine
      cases machine.stack.topLabel? with
      | none => exact Within.refl _
      | some label => exact grows _
  | .branch (depth + 1), _ => exact Within.refl _
  | .returned, _ => exact Within.refl _

/-- One more unit of fuel changes no outcome of execution. -/
theorem within_succ (fuel : Nat) :
    (∀ index, Within (call program fuel index) (call program (fuel + 1) index)) ∧
    (∀ base instructions, Within (sequence program fuel base instructions)
      (sequence program (fuel + 1) base instructions)) ∧
    (∀ base kind body rest, Within (labelled program fuel base kind body rest)
      (labelled program (fuel + 1) base kind body rest)) ∧
    (∀ base code, Within (instruction program fuel base code)
      (instruction program (fuel + 1) base code)) := by
  induction fuel with
  | zero =>
      refine ⟨?_, ?_, ?_, ?_⟩ <;> intros <;> intro _ _ ended <;>
        simp [call, sequence, labelled, instruction] at ended
  | succ fuel ih =>
      obtain ⟨callIH, sequenceIH, labelledIH, instructionIH⟩ := ih
      refine ⟨?_, ?_, ?_, ?_⟩
      · intro index
        rw [call, call]
        refine Within.bind (Within.refl _) ?_
        rintro ⟨function, base⟩
        exact Within.bind (Within.asCall (sequenceIH _ _)) (fun _ => Within.refl _)
      · intro base instructions
        cases instructions with
        | nil => exact Within.refl _
        | cons first rest =>
            rw [sequence_cons, sequence_cons]
            refine Within.bind (instructionIH _ _) ?_
            intro ending
            split
            · exact sequenceIH _ _
            · exact Within.refl _
      · intro base kind body rest
        cases rest with
        | nil =>
            rw [labelled_nil, labelled_nil]
            exact settle_within program base kind body (labelledIH base kind body) .normal
        | cons first rest =>
            rw [labelled_cons, labelled_cons]
            refine Within.bind (instructionIH _ _) ?_
            intro ending
            split
            · exact labelledIH _ _ _ _
            · exact settle_within program base kind body (labelledIH base kind body) ending
      · intro base code
        cases code with
        | structured kind label body span =>
            rw [instruction, instruction]
            exact Within.bind (Within.refl _) (fun _ => labelledIH _ _ _ _)
        | plain opcode operand span =>
            rw [instruction, instruction]
            split
            · refine Within.bind (Within.refl _) ?_
              intro index
              exact Within.bind (callIH index) (fun _ => Within.refl _)
            · exact Within.refl _

theorem call_within {fuel more : Nat} (enough : fuel ≤ more) (index : Nat) :
    Within (call program fuel index) (call program more index) :=
  Within.of_le (fun fuel => (within_succ program fuel).1 index) enough

theorem sequence_within {fuel more : Nat} (enough : fuel ≤ more) (base : Nat)
    (instructions : List Instruction) :
    Within (sequence program fuel base instructions) (sequence program more base instructions) :=
  Within.of_le (fun fuel => (within_succ program fuel).2.1 base instructions) enough

theorem labelled_within {fuel more : Nat} (enough : fuel ≤ more) (base : Nat)
    (kind : BlockKind) (body rest : List Instruction) :
    Within (labelled program fuel base kind body rest)
      (labelled program more base kind body rest) :=
  Within.of_le (fun fuel => (within_succ program fuel).2.2.1 base kind body rest) enough

theorem instruction_within {fuel more : Nat} (enough : fuel ≤ more) (base : Nat)
    (code : Instruction) :
    Within (instruction program fuel base code) (instruction program more base code) :=
  Within.of_le (fun fuel => (within_succ program fuel).2.2.2 base code) enough

/-- A block that ends executes its body as a sequence, and then does what the
ending of the body asks for. -/
theorem sequence_settle_of_labelled {fuel base : Nat} {kind : BlockKind}
    {body rest : List Instruction} {machine : Machine}
    {outcome : Except RuntimeError Ending × Machine}
    (ended : labelled program (fuel + 1) base kind body rest machine = some outcome) :
    (sequence program (fuel + 1) base rest >>= settle program fuel base kind body) machine =
      some outcome := by
  induction fuel generalizing rest machine outcome with
  | zero =>
      cases rest with
      | nil => simpa [labelled_nil, sequence] using ended
      | cons first rest => simp [labelled_cons, instruction] at ended
  | succ fuel ih =>
      cases rest with
      | nil => simpa [labelled_nil, sequence] using ended
      | cons first rest =>
          rw [labelled_cons] at ended
          rw [sequence_cons, bind_assoc]
          refine Within.bind (Within.refl _) ?_ _ _ ended
          intro ending
          by_cases normal : ending = .normal
          · simp only [if_pos normal]
            intro after outcome ended
            exact Within.bind (Within.refl _)
              (settle_within program base kind body
                (labelled_within program (Nat.le_succ fuel) base kind body))
              _ _ (ih ended)
          · simp only [if_neg normal, pure_bind]
            exact Within.refl _

/-- Conversely, a block ends if its body does and what follows it does. -/
theorem labelled_of_sequence_settle {fuel more base : Nat} {kind : BlockKind}
    {body rest : List Instruction} {machine : Machine}
    {outcome : Except RuntimeError Ending × Machine}
    (ended : (sequence program fuel base rest >>= settle program more base kind body) machine =
      some outcome) :
    ∃ enough, labelled program enough base kind body rest machine = some outcome := by
  induction fuel generalizing rest machine with
  | zero => simp [sequence] at ended
  | succ fuel ih =>
      cases rest with
      | nil => exact ⟨more + 1, by simpa [labelled_nil, sequence] using ended⟩
      | cons first rest =>
          rw [sequence_cons, bind_assoc] at ended
          rcases bind_eq_some.mp ended with
            ⟨error, after, failed, same⟩ | ⟨ending, after, begun, ended⟩
          · refine ⟨fuel + 1, ?_⟩
            rw [labelled_cons]
            exact bind_eq_some.mpr (.inl ⟨error, after, failed, same⟩)
          by_cases normal : ending = .normal
          · rw [if_pos normal] at ended
            obtain ⟨enough, others⟩ := ih ended
            refine ⟨max fuel enough + 1, ?_⟩
            rw [labelled_cons]
            refine bind_eq_some.mpr (.inr ⟨ending, after, ?_, ?_⟩)
            · exact instruction_within program (Nat.le_max_left _ _) base first _ _ begun
            · rw [if_pos normal]
              exact labelled_within program (Nat.le_max_right _ _) base kind body rest _ _ others
          · rw [if_neg normal, pure_bind] at ended
            refine ⟨max fuel more + 1, ?_⟩
            rw [labelled_cons]
            refine bind_eq_some.mpr (.inr ⟨ending, after, ?_, ?_⟩)
            · exact instruction_within program (Nat.le_max_left _ _) base first _ _ begun
            · rw [if_neg normal]
              exact settle_within program base kind body
                (labelled_within program (Nat.le_max_right _ _) base kind body) ending _ _ ended

end Execution

/-- The values are taken off the stack whether the step fails or not. -/
@[simp]
theorem Program.collect_apply (step : Execution Unit) (machine : Machine) :
    collect step machine =
      (step machine).map fun outcome =>
        (outcome.1.map fun _ => outcome.2.stack.values, { outcome.2 with stack := .empty }) := by
  unfold collect
  rcases step machine with _ | ⟨error | value, after⟩ <;> rfl

end WatMachine
