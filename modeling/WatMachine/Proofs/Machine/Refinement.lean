import WatMachine.Proofs.Machine.Endings

/-!
# Execution refines evaluation

Execution on a stack that is laid out for its call ends whenever evaluation
does, in the same way, and the other way round.  Both directions are shown by
induction on the fuel that the given side spends, since the two sides do not
spend it in the same places.
-/

namespace WatMachine

open Entry

namespace Execution

open Stack StackAction

section Evaluated

variable (program : Program) (fuel : Nat)

/-- Whenever a call ends, its evaluation ends in the same way. -/
def CallEvaluated : Prop :=
  ∀ depth index values entries outcome, MarkerLed entries →
    call program fuel index ⟨ofEntries (ofValues values ++ entries), depth⟩ = some outcome →
    ∃ result, (Evaluation.call program fuel depth index values).run = some result ∧
      Agrees (CallMatches entries) depth result outcome

def SequenceEvaluated : Prop :=
  ∀ depth instructions workspace context below outcome,
    sequence program fuel below.length instructions ⟨laidOut workspace context below, depth⟩ =
      some outcome →
    ∃ result, (Evaluation.sequence program fuel depth context.length instructions workspace).run =
        some result ∧
      Agrees (Matches context below) depth result outcome

def InstructionEvaluated : Prop :=
  ∀ depth code workspace context below outcome,
    instruction program fuel below.length code ⟨laidOut workspace context below, depth⟩ =
      some outcome →
    ∃ result, (Evaluation.instruction program fuel depth context.length code workspace).run =
        some result ∧
      Agrees (Matches context below) depth result outcome

variable {program fuel}

theorem sequenceEvaluated_succ (sequenceIH : SequenceEvaluated program fuel)
    (instructionIH : InstructionEvaluated program fuel) :
    SequenceEvaluated program (fuel + 1) := by
  intro depth instructions workspace context below outcome ended
  cases instructions with
  | nil =>
      cases ended
      exact ⟨_, rfl, _, _, rfl, .normal _⟩
  | cons first rest =>
      rw [sequence_cons] at ended
      rw [Evaluation.sequence]
      rcases bind_eq_some.mp ended with ⟨error, after, failed, rfl⟩ | ⟨ending, after, begun, others⟩
      · obtain ⟨result, evaluated, _, _, same, matched⟩ := instructionIH _ _ _ _ _ _ failed
        cases same
        cases matched
        exact ⟨_, Evaluation.bind_eq_some.mpr (.inl ⟨_, evaluated, rfl⟩), _, _, rfl, .error _ _⟩
      · obtain ⟨result, evaluated, _, _, same, matched⟩ := instructionIH _ _ _ _ _ _ begun
        cases same
        cases matched with
        | normal workspace =>
            obtain ⟨result, continued, agreed⟩ := sequenceIH _ _ _ _ _ _ others
            exact ⟨result, Evaluation.bind_eq_some.mpr (.inr ⟨_, evaluated, continued⟩), agreed⟩
        | branch depth workspace =>
            cases others
            exact ⟨_, Evaluation.bind_eq_some.mpr (.inr ⟨_, evaluated, rfl⟩), _, _, rfl,
              .branch _ _⟩
        | returned frame results =>
            cases others
            exact ⟨_, Evaluation.bind_eq_some.mpr (.inr ⟨_, evaluated, rfl⟩), _, _, rfl,
              .returned _ _⟩

theorem instructionEvaluated_succ (callIH : CallEvaluated program fuel)
    (sequenceIH : SequenceEvaluated program fuel)
    (instructionIH : InstructionEvaluated program fuel) :
    InstructionEvaluated program (fuel + 1) := by
  intro depth code workspace context below outcome ended
  cases code with
  | structured kind label body span =>
      rw [instruction, bind_apply, onStack_apply] at ended
      simp only [push_apply, push_label_laidOut] at ended
      rw [Evaluation.instruction_structured]
      cases fuel with
      | zero => simp [labelled] at ended
      | succ fuel =>
          rcases bind_eq_some.mp (sequence_settle_of_labelled program ended) with
            ⟨error, after, failed, rfl⟩ | ⟨ending, after, begun, settled⟩
          · obtain ⟨result, evaluated, _, _, same, matched⟩ := sequenceIH _ _ _ _ _ _ failed
            cases same
            cases matched
            exact ⟨_, Evaluation.bind_eq_some.mpr (.inl ⟨_, evaluated, rfl⟩), _, _, rfl,
              .error _ _⟩
          obtain ⟨result, evaluated, _, _, same, matched⟩ := sequenceIH _ _ _ _ _ _ begun
          cases same
          cases result with
          | error error => cases matched
          | ok completion =>
              -- A loop that restarts finds its stack laid out as if it were entered anew.
              obtain ⟨inside, inner, rfl, rfl, again⟩ | ⟨closes, result, after, closed, ends⟩ :=
                settle_cases program depth label body span matched
              · rw [again] at settled
                obtain ⟨result, restarted, agreed⟩ := instructionIH _ _ _ _ _ _ settled
                exact ⟨result, Evaluation.bind_eq_some.mpr (.inr ⟨_, evaluated, restarted⟩), agreed⟩
              · rw [ends] at settled
                cases settled
                refine ⟨_, Evaluation.bind_eq_some.mpr (.inr ⟨_, evaluated, ?_⟩), _, _, rfl, closed⟩
                rw [closes]
                rfl
  | plain opcode operand span =>
      by_cases isCall : opcode = .call
      · subst isCall
        rcases operand with _ | index | literal
        · cases ended
          exact ⟨_, rfl, _, _, rfl, .error _ _⟩
        · rw [instruction_call] at ended
          rw [Evaluation.instruction_call]
          rcases bind_eq_some.mp ended with ⟨error, after, failed, rfl⟩ | ⟨_, after, begun, others⟩
          · obtain ⟨result, evaluated, _, _, same, matched⟩ :=
              callIH _ _ _ _ _ (markers_markerLed _ _ _) failed
            cases same
            cases matched
            exact ⟨_, Evaluation.bind_eq_some.mpr (.inl ⟨_, evaluated, rfl⟩), _, _, rfl,
              .error _ _⟩
          · obtain ⟨result, evaluated, _, _, same, matched⟩ :=
              callIH _ _ _ _ _ (markers_markerLed _ _ _) begun
            cases same
            cases matched
            cases others
            exact ⟨_, Evaluation.bind_eq_some.mpr (.inr ⟨_, evaluated, rfl⟩), _, _, rfl,
              .normal ⟨workspace.frame, _⟩⟩
        · cases ended
          exact ⟨_, rfl, _, _, rfl, .error _ _⟩
      · rw [instruction, if_neg isCall] at ended
        rw [Evaluation.instruction_of_ne_call program isCall]
        cases ended
        exact ⟨_, rfl, _, _, rfl, Operation.perform_matches _ _ _ _ _⟩

theorem callEvaluated_succ (sequenceIH : SequenceEvaluated program fuel) :
    CallEvaluated program (fuel + 1) := by
  intro depth index values entries outcome marked ended
  cases entered : Evaluation.enter program depth index values with
  | error error =>
      rw [call, bind_apply, enter_apply _ _ _ _ marked, entered] at ended
      cases ended
      rw [Evaluation.call, entered]
      exact ⟨_, rfl, _, _, rfl, .error _ _⟩
  | ok started =>
      obtain ⟨function, frame, below⟩ := started
      cases ran : sequence program fuel (ofValues below ++ entries).length function.body
          ⟨laidOut ⟨frame, []⟩ [] (ofValues below ++ entries), depth + 1⟩ with
      | none =>
          rw [call_apply_of_enter marked entered, bind_apply, asCall_apply, ran] at ended
          cases ended
      | some inner =>
          obtain ⟨result, evaluated, _, stack, rfl, matched⟩ := sequenceIH _ _ _ [] _ _ ran
          obtain ⟨same, called, agreed⟩ := call_of_body marked entered evaluated ran matched
          obtain rfl := Option.some.inj (called.symm.trans ended)
          refine ⟨_, ?_, agreed⟩
          rw [Evaluation.call_of_enter program entered]
          cases result with
          | error error => exact Evaluation.bind_eq_some.mpr (.inl ⟨_, evaluated, rfl⟩)
          | ok completion => exact Evaluation.bind_eq_some.mpr (.inr ⟨_, evaluated, rfl⟩)

/-- Whenever execution ends, evaluation ends in the same way. -/
theorem evaluated (program : Program) (fuel : Nat) :
    CallEvaluated program fuel ∧ SequenceEvaluated program fuel ∧
      InstructionEvaluated program fuel := by
  induction fuel with
  | zero =>
      refine ⟨?_, ?_, ?_⟩
      · intro depth index values entries outcome marked ended
        simp [call] at ended
      · intro depth instructions workspace context below outcome ended
        simp [sequence] at ended
      · intro depth code workspace context below outcome ended
        simp [instruction] at ended
  | succ fuel ih =>
      obtain ⟨callIH, sequenceIH, instructionIH⟩ := ih
      exact ⟨callEvaluated_succ sequenceIH, sequenceEvaluated_succ sequenceIH instructionIH,
        instructionEvaluated_succ callIH sequenceIH instructionIH⟩

end Evaluated

section Executed

variable (program : Program) (fuel : Nat)

/-- Whenever the evaluation of a call ends, the call ends in the same way. -/
def CallExecuted : Prop :=
  ∀ depth index values entries result, MarkerLed entries →
    (Evaluation.call program fuel depth index values).run = some result →
    ∃ enough outcome,
      call program enough index ⟨ofEntries (ofValues values ++ entries), depth⟩ = some outcome ∧
      Agrees (CallMatches entries) depth result outcome

def SequenceExecuted : Prop :=
  ∀ depth instructions workspace (context : List Interrupted) below result,
    (Evaluation.sequence program fuel depth context.length instructions workspace).run =
      some result →
    ∃ enough outcome,
      sequence program enough below.length instructions ⟨laidOut workspace context below, depth⟩ =
        some outcome ∧
      Agrees (Matches context below) depth result outcome

def InstructionExecuted : Prop :=
  ∀ depth code workspace (context : List Interrupted) below result,
    (Evaluation.instruction program fuel depth context.length code workspace).run =
      some result →
    ∃ enough outcome,
      instruction program enough below.length code ⟨laidOut workspace context below, depth⟩ =
        some outcome ∧
      Agrees (Matches context below) depth result outcome

variable {program fuel}

theorem sequenceExecuted_succ (sequenceIH : SequenceExecuted program fuel)
    (instructionIH : InstructionExecuted program fuel) :
    SequenceExecuted program (fuel + 1) := by
  intro depth instructions workspace context below result evaluated
  cases instructions with
  | nil =>
      cases evaluated
      exact ⟨1, _, rfl, _, _, rfl, .normal _⟩
  | cons first rest =>
      rw [Evaluation.sequence] at evaluated
      rcases Evaluation.bind_eq_some.mp evaluated with
        ⟨error, failed, rfl⟩ | ⟨completion, begun, others⟩
      · obtain ⟨enough, _, executed, ended, stack, rfl, matched⟩ :=
          instructionIH _ _ _ _ below _ failed
        cases matched
        refine ⟨enough + 1, _, ?_, _, stack, rfl, .error _ _⟩
        rw [sequence_cons]
        exact bind_eq_some.mpr (.inl ⟨_, _, executed, rfl⟩)
      · obtain ⟨enough, _, executed, _, _, rfl, matched⟩ := instructionIH _ _ _ _ below _ begun
        cases matched with
        | normal workspace =>
            obtain ⟨more, outcome, continued, agreed⟩ := sequenceIH _ _ _ _ below _ others
            refine ⟨max enough more + 1, outcome, ?_, agreed⟩
            rw [sequence_cons]
            exact bind_eq_some.mpr (.inr ⟨_, _,
              instruction_within program (Nat.le_max_left _ _) _ _ _ _ executed,
              sequence_within program (Nat.le_max_right _ _) _ _ _ _ continued⟩)
        | branch depth workspace =>
            cases others
            refine ⟨enough + 1, _, ?_, _, _, rfl, .branch _ workspace⟩
            rw [sequence_cons]
            exact bind_eq_some.mpr (.inr ⟨_, _, executed, rfl⟩)
        | returned frame results =>
            cases others
            refine ⟨enough + 1, _, ?_, _, _, rfl, .returned frame results⟩
            rw [sequence_cons]
            exact bind_eq_some.mpr (.inr ⟨_, _, executed, rfl⟩)

/-- A block ends if its body ends and what it makes of that ending does. -/
theorem instruction_of_sequence_settle (more : Nat) {base : Nat} {kind : BlockKind}
    {body : List Instruction} {outcome : Except RuntimeError Ending × Machine}
    (label : Option String) (span : Source.Span) (machine : Machine)
    (ended : (sequence program fuel base body >>= settle program more base kind body)
      { machine with stack := machine.stack.push (.label (.start kind)) } = some outcome) :
    ∃ enough, instruction program enough base (.structured kind label body span) machine =
      some outcome := by
  obtain ⟨enough, executed⟩ := labelled_of_sequence_settle program ended
  exact ⟨enough + 1, executed⟩

/-- A block that executes its body as evaluation does ends as evaluation
does, provided that it does so once it has gone back to the start of a loop. -/
theorem structured_executed {depth more : Nat} {kind : BlockKind} {label : Option String}
    {body : List Instruction} {span : Source.Span} {workspace : Workspace}
    {context : List Interrupted} {below : List Entry}
    {completion : Completion (context.length + 1)}
    {result : Except RuntimeError (Completion context.length)} {ending : Ending} {stack : Stack}
    (instructionIH : InstructionExecuted program fuel)
    (executed : sequence program more below.length body
      ⟨laidOut ⟨workspace.frame, []⟩ (⟨.start kind, workspace.values⟩ :: context) below, depth⟩ =
        some (.ok ending, ⟨stack, depth⟩))
    (matched : Matches (⟨.start kind, workspace.values⟩ :: context) below (.ok completion)
      (.ok ending, stack))
    (settled : (Evaluation.settle program fuel depth context.length kind label body span
      workspace.values completion).run = some result) :
    ∃ enough outcome,
      instruction program enough below.length (.structured kind label body span)
        ⟨laidOut workspace context below, depth⟩ = some outcome ∧
      Agrees (Matches context below) depth result outcome := by
  let started : Machine := ⟨laidOut workspace context below, depth⟩
  have pushed : (laidOut workspace context below).push (.label (.start kind)) =
      laidOut ⟨workspace.frame, []⟩ (⟨.start kind, workspace.values⟩ :: context) below :=
    push_label_laidOut _ _ _ _
  obtain ⟨inside, inner, rfl, rfl, again⟩ | ⟨closes, ended, after, closed, ends⟩ :=
    settle_cases program depth label body span matched
  · obtain ⟨enough, outcome, restarted, agreed⟩ := instructionIH _ _ _ _ below _ settled
    -- Going back inside its block costs a loop one unit of fuel less than entering it.
    have restarted : settle program enough below.length .loop body ending ⟨stack, depth⟩ =
        some outcome := by
      rw [again]
      exact instruction_within program (Nat.le_succ enough) _ _ _ _ restarted
    obtain ⟨enough, ended⟩ := instruction_of_sequence_settle enough label span started
      (pushed ▸ bind_eq_some.mpr (.inr ⟨_, _, executed, restarted⟩))
    exact ⟨enough, outcome, ended, agreed⟩
  · rw [closes] at settled
    cases settled
    obtain ⟨enough, ended⟩ := instruction_of_sequence_settle 0 label span started
      (pushed ▸ bind_eq_some.mpr (.inr ⟨_, _, executed, ends 0⟩))
    exact ⟨enough, _, ended, _, _, rfl, closed⟩

theorem instructionExecuted_succ (callIH : CallExecuted program fuel)
    (sequenceIH : SequenceExecuted program fuel)
    (instructionIH : InstructionExecuted program fuel) :
    InstructionExecuted program (fuel + 1) := by
  intro depth code workspace context below result evaluated
  cases code with
  | structured kind label body span =>
      rw [Evaluation.instruction_structured] at evaluated
      have bodyIH := sequenceIH depth body ⟨workspace.frame, []⟩
        (⟨.start kind, workspace.values⟩ :: context) below
      rcases Evaluation.bind_eq_some.mp evaluated with
        ⟨error, failed, rfl⟩ | ⟨completion, begun, settled⟩
      · obtain ⟨more, _, executed, ended, stack, rfl, matched⟩ := bodyIH (.error error) failed
        cases matched
        obtain ⟨enough, ended⟩ := instruction_of_sequence_settle 0 label span
          ⟨laidOut workspace context below, depth⟩
          (bind_eq_some.mpr (.inl ⟨_, _, by rwa [push_label_laidOut], rfl⟩))
        exact ⟨enough, _, ended, _, stack, rfl, .error _ _⟩
      · obtain ⟨more, _, executed, ended, stack, rfl, matched⟩ := bodyIH (.ok completion) begun
        cases ended with
        | error error => cases matched
        | ok ending => exact structured_executed instructionIH executed matched settled
  | plain opcode operand span =>
      by_cases isCall : opcode = .call
      · subst isCall
        rcases operand with _ | index | literal
        · cases evaluated
          exact ⟨1, _, rfl, _, _, rfl, .error _ _⟩
        · rw [Evaluation.instruction_call] at evaluated
          rcases Evaluation.bind_eq_some.mp evaluated with
            ⟨error, failed, rfl⟩ | ⟨values, begun, others⟩
          · obtain ⟨enough, _, executed, _, stack, rfl, matched⟩ :=
              callIH _ _ _ _ _ (markers_markerLed workspace.frame below context) failed
            cases matched
            refine ⟨enough + 1, _, ?_, _, stack, rfl, .error _ _⟩
            rw [instruction_call]
            exact bind_eq_some.mpr (.inl ⟨_, _, executed, rfl⟩)
          · obtain ⟨enough, _, executed, _, _, rfl, matched⟩ :=
              callIH _ _ _ _ _ (markers_markerLed workspace.frame below context) begun
            cases matched
            cases others
            refine ⟨enough + 1, _, ?_, _, _, rfl, .normal ⟨workspace.frame, values⟩⟩
            rw [instruction_call]
            exact bind_eq_some.mpr (.inr ⟨_, _, executed, rfl⟩)
        · cases evaluated
          exact ⟨1, _, rfl, _, _, rfl, .error _ _⟩
      · rw [Evaluation.instruction_of_ne_call program isCall] at evaluated
        cases evaluated
        refine ⟨1, _, ?_, _, _, rfl, Operation.perform_matches _ _ _ _ _⟩
        rw [instruction, if_neg isCall]
        rfl

theorem callExecuted_succ (sequenceIH : SequenceExecuted program fuel) :
    CallExecuted program (fuel + 1) := by
  intro depth index values entries result marked evaluated
  cases entered : Evaluation.enter program depth index values with
  | error error =>
      rw [Evaluation.call, entered] at evaluated
      cases evaluated
      refine ⟨1, _, ?_, _, ofEntries (ofValues values ++ entries), rfl, .error _ _⟩
      rw [call, bind_apply, enter_apply _ _ _ _ marked, entered]
  | ok started =>
      obtain ⟨function, frame, below⟩ := started
      rw [Evaluation.call_of_enter program entered] at evaluated
      have bodyIH := sequenceIH (depth + 1) function.body ⟨frame, []⟩ [] (ofValues below ++ entries)
      rcases Evaluation.bind_eq_some.mp evaluated with
        ⟨error, failed, rfl⟩ | ⟨completion, begun, left⟩
      · obtain ⟨enough, _, executed, ended, stack, rfl, matched⟩ := bodyIH _ failed
        obtain ⟨outcome, called, agreed⟩ := call_of_body marked entered failed executed matched
        exact ⟨enough + 1, outcome, called, agreed⟩
      · obtain ⟨enough, _, executed, ended, stack, rfl, matched⟩ := bodyIH _ begun
        obtain ⟨outcome, called, agreed⟩ := call_of_body marked entered begun executed matched
        cases left
        exact ⟨enough + 1, outcome, called, agreed⟩

/-- Whenever evaluation ends, execution ends in the same way. -/
theorem executed (program : Program) (fuel : Nat) :
    CallExecuted program fuel ∧ SequenceExecuted program fuel ∧
      InstructionExecuted program fuel := by
  induction fuel with
  | zero =>
      refine ⟨?_, ?_, ?_⟩
      · intro depth index values entries result marked evaluated
        cases evaluated
      · intro depth instructions workspace context below result evaluated
        cases evaluated
      · intro depth code workspace context below result evaluated
        cases evaluated
  | succ fuel ih =>
      obtain ⟨callIH, sequenceIH, instructionIH⟩ := ih
      exact ⟨callExecuted_succ sequenceIH, sequenceExecuted_succ sequenceIH instructionIH,
        instructionExecuted_succ callIH sequenceIH instructionIH⟩

end Executed

end Execution

namespace Program

open Execution

/-- What a call from outside gives is what it left in the scope that held
its arguments. -/
theorem values_of_callMatches {result : Except RuntimeError (List Int32)}
    {ended : Except RuntimeError Unit} {stack : Stack}
    (matched : CallMatches [] result (ended, stack)) :
    ended.map (fun _ => stack.values) = result.map List.reverse := by
  cases matched with
  | error error stack => rfl
  | ok values =>
      have kept : (Entry.ofValues values ++ []).filterMap Entry.value? = values := by
        simp [Entry.ofValues, List.filterMap_map, Function.comp_def, Entry.value?]
      exact congrArg (Except.ok ∘ List.reverse) kept

section Outside

variable (program : Program) (fuel index : Nat) (arguments : List Int32)

/-- A call from outside that is not rejected starts in a scope that holds its
arguments. -/
theorem invoke_apply (machine : Machine) :
    program.invoke fuel index arguments machine =
      match program.callee index with
      | .error error => some (.error error, machine)
      | .ok callee =>
          if arguments.length = callee.frame.argumentCount then
            collect (call program fuel index)
              ⟨.ofEntries (Entry.ofValues arguments.reverse ++ []), 0⟩
          else
            some (.error (.arityMismatch callee.frame.argumentCount arguments.length),
              machine) := by
  rw [invoke, bind_apply, liftM_apply]
  cases program.callee index with
  | error error => rfl
  | ok callee =>
      have started : Stack.empty.pushValues arguments =
          .ofEntries (Entry.ofValues arguments.reverse ++ []) :=
        Stack.pushValues_ofEntries [] arguments
      rw [← started]
      simp only
      split <;> rfl

/-- A call from outside that ends is rejected, for its index or for the number
of its arguments, and leaves the state as it was, or it ends as evaluation
does and leaves the idle state. -/
theorem invoke_cases {program : Program} {fuel index : Nat} {arguments : List Int32}
    {machine after : Machine} {outcome : Except RuntimeError (List Int32)}
    (ended : program.invoke fuel index arguments machine = some (outcome, after)) :
    (∃ error, program.callee index = .error error ∧ outcome = .error error ∧ after = machine) ∨
    ∃ callee, program.callee index = .ok callee ∧
      (arguments.length ≠ callee.frame.argumentCount ∧ after = machine ∧
        outcome = .error (.arityMismatch callee.frame.argumentCount arguments.length) ∨
      arguments.length = callee.frame.argumentCount ∧ after = .idle ∧
        ∃ result, (Evaluation.call program fuel 0 index arguments.reverse).run = some result ∧
          outcome = result.map List.reverse) := by
  rw [invoke_apply] at ended
  cases found : program.callee index with
  | error error =>
      rw [found] at ended
      cases ended
      exact .inl ⟨error, rfl, rfl, rfl⟩
  | ok callee =>
      refine .inr ⟨callee, rfl, ?_⟩
      simp only [found] at ended
      by_cases same : arguments.length = callee.frame.argumentCount
      · rw [if_pos same, collect_apply] at ended
        obtain ⟨_, called, given⟩ := Option.map_eq_some_iff.mp ended
        obtain ⟨result, evaluates, _, _, rfl, matched⟩ :=
          (evaluated program fuel).1 _ _ _ [] _ rfl called
        cases given
        exact .inr ⟨same, rfl, result, evaluates, values_of_callMatches matched⟩
      · rw [if_neg same] at ended
        cases ended
        exact .inl ⟨same, rfl, rfl⟩

end Outside

end Program

end WatMachine
