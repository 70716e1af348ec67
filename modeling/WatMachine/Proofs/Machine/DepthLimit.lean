import WatMachine.Proofs.Machine.LocalErrors
import WatMachine.Proofs.Machine.StackShape

/-!
# The limit of active calls

Two programs that differ in their limits do the same until a call is refused
under the lower one, so that a limit cuts runs short and changes nothing else.
A call is refused only while as many calls are active as the limit allows,
and the error gives that limit.
-/

namespace WatMachine

variable {α β : Type}

namespace RuntimeError

def isOverflow : RuntimeError → Bool
  | callStackOverflow _ => true
  | _ => false

theorem isOverflow_of_isLocal {error : RuntimeError} (isLocal : error.isLocal = true) :
    error.isOverflow = false := by
  cases error with
  | callStackOverflow limit => cases isLocal
  | _ => rfl

theorem isOverflow_of_definition {program : Program} {index : Nat} {error : RuntimeError}
    (failed : program.definition index = .error error) : error.isOverflow = false := by
  unfold Program.definition Program.callee at failed
  cases found : program.callee? index with
  | none =>
      rw [found] at failed
      cases failed
      rfl
  | some callee =>
      rw [found] at failed
      cases callee <;> cases failed
      rfl

end RuntimeError

open RuntimeError

namespace Program

def withLimit (program : Program) (limit : Nat) : Program :=
  { program with maxCallDepth := limit }

end Program

namespace Execution

/-- Whether no error of a step says that too many calls are active. -/
def NeverOverflows (step : Execution α) : Prop :=
  ∀ machine error after, step machine = some (.error error, after) → error.isOverflow = false

/-- Whether the first step does what the second one does, except where it is
refused because `limit` calls are active. -/
def CutShort (limit : Nat) (first second : Execution α) : Prop :=
  ∀ machine,
    (∃ after, first machine = some (.error (.callStackOverflow limit), after)) ∨
    first machine = second machine ∧
      ∀ error after, first machine = some (.error error, after) → error.isOverflow = false

namespace NeverOverflows

theorem pure (value : α) : NeverOverflows (pure value) :=
  FailsOnlyWith.pure value

theorem throw {error : RuntimeError} (other : error.isOverflow = false) :
    NeverOverflows (throw error : Execution α) :=
  FailsOnlyWith.throw other

theorem get : NeverOverflows get :=
  FailsOnlyWith.get

theorem onStack {action : StackAction α} (locally : action.FailsLocally) :
    NeverOverflows (onStack action) :=
  FailsOnlyWith.onStack locally fun _ => isOverflow_of_isLocal

theorem definition (program : Program) (index : Nat) :
    NeverOverflows (liftM (program.definition index) : Execution FunctionDefinition) :=
  FailsOnlyWith.lift fun _ => isOverflow_of_definition

theorem bind {step : Execution α} {next : α → Execution β} (first : NeverOverflows step)
    (rest : ∀ value, NeverOverflows (next value)) : NeverOverflows (step >>= next) :=
  FailsOnlyWith.bind first rest

end NeverOverflows

namespace CutShort

variable {limit : Nat}

theorem refl {step : Execution α} (never : NeverOverflows step) : CutShort limit step step :=
  fun machine => .inr ⟨rfl, never machine⟩

theorem bind {first second : Execution α} {next after : α → Execution β}
    (cut : CutShort limit first second)
    (rest : ∀ value, CutShort limit (next value) (after value)) :
    CutShort limit (first >>= next) (second >>= after) := by
  intro machine
  rw [bind_apply, bind_apply]
  rcases cut machine with ⟨left, refused⟩ | ⟨same, never⟩
  · rw [refused]
    exact .inl ⟨left, rfl⟩
  · rw [← same]
    rcases ended : first machine with _ | ⟨error | value, left⟩
    · exact .inr ⟨rfl, nofun⟩
    · refine .inr ⟨rfl, ?_⟩
      intro found behind failed
      cases failed
      exact never error left ended
    · exact rest value left

theorem asCall {first second : Execution α} (cut : CutShort limit first second) :
    CutShort limit (asCall first) (asCall second) := by
  intro machine
  rw [asCall_apply, asCall_apply]
  rcases cut { machine with depth := machine.depth + 1 } with ⟨left, refused⟩ | ⟨same, never⟩
  · rw [refused]
    exact .inl ⟨_, rfl⟩
  · rw [← same]
    refine .inr ⟨rfl, ?_⟩
    intro error after failed
    obtain ⟨⟨result, left⟩, ended, same⟩ := Option.map_eq_some_iff.mp failed
    cases same
    exact never error left ended

end CutShort

/-- What starting a call does once it is not refused. -/
def startCall (program : Program) (index : Nat) : Execution (FunctionDefinition × Nat) := do
  let function ← program.definition index
  let arguments ← onStack (StackAction.popValues function.frame.argumentCount)
  let base := (← get).stack.size
  onStack (StackAction.push (.activation (function.frame.withArguments arguments)))
  return (function, base)

section Limits

variable (program : Program) {limit more : Nat}

theorem enter_of_le (index : Nat) {machine : Machine}
    (refused : program.maxCallDepth ≤ machine.depth) :
    enter program index machine =
      some (.error (.callStackOverflow program.maxCallDepth), machine) := by
  simp [enter, refused]

theorem enter_of_lt (index : Nat) {machine : Machine}
    (below : machine.depth < program.maxCallDepth) :
    enter program index machine = startCall program index machine := by
  have admitted : ¬ program.maxCallDepth ≤ machine.depth := by omega
  rw [enter, bind_apply, get_apply]
  simp only [if_neg admitted]
  rfl

theorem startCall_neverOverflows (index : Nat) : NeverOverflows (startCall program index) :=
  .bind (.definition program index) fun _ =>
    .bind (.onStack (StackAction.popValues_failsLocally _)) fun _ => .bind .get fun _ =>
      .bind (.onStack (.modify _)) fun _ => .pure _

/-- The limits are compared with the number of active calls before anything
else is looked at. -/
theorem enter_cutShort (ordered : limit ≤ more) (index : Nat) :
    CutShort limit (enter (program.withLimit limit) index)
      (enter (program.withLimit more) index) := by
  intro machine
  by_cases refused : limit ≤ machine.depth
  · exact .inl ⟨machine, enter_of_le (program.withLimit limit) index refused⟩
  · have below : machine.depth < limit := by omega
    have alsoBelow : machine.depth < more := by omega
    rw [enter_of_lt (program.withLimit limit) index below,
      enter_of_lt (program.withLimit more) index alsoBelow]
    exact .inr ⟨rfl, startCall_neverOverflows _ index machine⟩

theorem settle_cutShort {fuel : Nat} (base : Nat) (kind : BlockKind) (body : List Instruction)
    (again : ∀ rest, CutShort limit
      (labelled (program.withLimit limit) fuel base kind body rest)
      (labelled (program.withLimit more) fuel base kind body rest)) (ending : Ending) :
    CutShort limit (settle (program.withLimit limit) fuel base kind body ending)
      (settle (program.withLimit more) fuel base kind body ending) := by
  match ending, kind with
  | .normal, _ =>
      exact .refl (.bind (.onStack closeBlock_failsLocally) fun _ => .pure _)
  | .branch 0, .block => exact .refl (.pure _)
  | .branch 0, .loop =>
      refine CutShort.bind (.refl .get) fun machine => ?_
      cases machine.stack.topLabel? with
      | none => exact .refl (.throw rfl)
      | some label => exact again _
  | .branch (depth + 1), _ => exact .refl (.pure _)
  | .returned, _ => exact .refl (.pure _)

theorem call_cutShort_succ {fuel : Nat} (ordered : limit ≤ more)
    (sequenceIH : ∀ base instructions, CutShort limit
      (sequence (program.withLimit limit) fuel base instructions)
      (sequence (program.withLimit more) fuel base instructions)) (index : Nat) :
    CutShort limit (call (program.withLimit limit) (fuel + 1) index)
      (call (program.withLimit more) (fuel + 1) index) := by
  rw [call, call]
  refine CutShort.bind (enter_cutShort program ordered index) ?_
  rintro ⟨function, base⟩
  refine CutShort.bind (CutShort.asCall (sequenceIH base function.body)) fun ending => ?_
  cases ending with
  | branch depth => exact .refl (.throw rfl)
  | normal => exact .refl (.onStack (leave_failsLocally _ _))
  | returned => exact .refl (.onStack (leave_failsLocally _ _))

/-- Execution under a lower limit is execution under a higher one cut
short. -/
theorem cutShort (ordered : limit ≤ more) (fuel : Nat) :
    (∀ index, CutShort limit (call (program.withLimit limit) fuel index)
      (call (program.withLimit more) fuel index)) ∧
    (∀ base instructions, CutShort limit
      (sequence (program.withLimit limit) fuel base instructions)
      (sequence (program.withLimit more) fuel base instructions)) ∧
    (∀ base kind body rest, CutShort limit
      (labelled (program.withLimit limit) fuel base kind body rest)
      (labelled (program.withLimit more) fuel base kind body rest)) ∧
    (∀ base code, CutShort limit (instruction (program.withLimit limit) fuel base code)
      (instruction (program.withLimit more) fuel base code)) := by
  -- Both runs take the same steps with the same fuel, so one induction serves the two.
  induction fuel with
  | zero =>
      have idle {α : Type} : CutShort limit (outOfFuel : Execution α) outOfFuel :=
        .refl (by intro machine error after failed; cases failed)
      exact ⟨fun _ => idle, fun _ _ => idle, fun _ _ _ _ => idle, fun _ _ => idle⟩
  | succ fuel ih =>
      obtain ⟨callIH, sequenceIH, labelledIH, instructionIH⟩ := ih
      refine ⟨call_cutShort_succ program ordered sequenceIH, ?_, ?_, ?_⟩
      · intro base instructions
        cases instructions with
        | nil => exact .refl (.pure _)
        | cons first rest =>
            rw [sequence_cons, sequence_cons]
            refine CutShort.bind (instructionIH base first) fun ending => ?_
            split
            · exact sequenceIH base rest
            · exact .refl (.pure _)
      · intro base kind body rest
        have settled := settle_cutShort program base kind body (labelledIH base kind body)
        cases rest with
        | nil =>
            rw [labelled_nil, labelled_nil]
            exact settled .normal
        | cons first rest =>
            rw [labelled_cons, labelled_cons]
            refine CutShort.bind (instructionIH base first) fun ending => ?_
            split
            · exact labelledIH base kind body rest
            · exact settled ending
      · intro base code
        cases code with
        | structured kind label body span =>
            rw [instruction, instruction]
            exact CutShort.bind (.refl (.onStack (.modify _))) fun _ =>
              labelledIH base kind body body
        | plain opcode operand span =>
            rw [instruction, instruction]
            split
            · refine CutShort.bind
                (.refl (.onStack (Operation.indexOperand_failsLocally _ _))) fun index => ?_
              exact CutShort.bind (callIH index) fun _ => .refl (.pure _)
            · exact .refl (.onStack (Operation.perform_failsLocally _ _ _))

end Limits

namespace Moment

variable {program : Program}

/-- Whether a task ends with an error. -/
def Fails (program : Program) (error : RuntimeError) : Moment → Prop
  | ⟨fuel, .call index, machine⟩ =>
      ∃ after, call program fuel index machine = some (.error error, after)
  | ⟨fuel, .sequence site _ instructions, machine⟩ =>
      ∃ after, sequence program fuel site.base instructions machine = some (.error error, after)
  | ⟨fuel, .labelled site kind body _ rest, machine⟩ =>
      ∃ after, labelled program fuel site.base kind body rest machine = some (.error error, after)
  | ⟨fuel, .instruction site _ code, machine⟩ =>
      ∃ after, instruction program fuel site.base code machine = some (.error error, after)

/-- Whether a task is a call that cannot start for an error. -/
def Refuses (program : Program) (error : RuntimeError) : Moment → Prop
  | ⟨_, .call index, machine⟩ => ∃ after, enter program index machine = some (.error error, after)
  | _ => False

section Overflow

variable {error : RuntimeError} {fuel : Nat} {machine : Machine}

theorem call_overflow (overflow : error.isOverflow = true) {index : Nat}
    (failed : Fails program error ⟨fuel + 1, .call index, machine⟩) :
    Refuses program error ⟨fuel + 1, .call index, machine⟩ ∨
      ∃ next, Starts program ⟨fuel + 1, .call index, machine⟩ next ∧ next.Fails program error := by
  obtain ⟨after, failed⟩ := failed
  rw [call] at failed
  rcases bind_eq_some.mp failed with
    ⟨_, _, refused, same⟩ | ⟨⟨function, base⟩, begun, entered, failed⟩
  · cases same
    exact .inl ⟨after, refused⟩
  rcases bind_eq_some.mp failed with ⟨_, _, inner, same⟩ | ⟨ending, left, ended, failed⟩
  · cases same
    rw [asCall_apply] at inner
    obtain ⟨⟨_, last⟩, ran, same⟩ := Option.map_eq_some_iff.mp inner
    cases same
    exact .inr ⟨_, .body entered, last, ran⟩
  · have leaves : NeverOverflows (onStack (leave base function.frame.resultCount)) :=
      .onStack (leave_failsLocally _ _)
    have other : error.isOverflow = false := by
      cases ending with
      | branch depth => exact NeverOverflows.throw rfl left error after failed
      | normal => exact leaves left error after failed
      | returned => exact leaves left error after failed
    rw [overflow] at other
    cases other

theorem sequence_overflow {site : Site} {position : Nat} {instructions : List Instruction}
    (failed : Fails program error ⟨fuel + 1, .sequence site position instructions, machine⟩) :
    ∃ next, Starts program ⟨fuel + 1, .sequence site position instructions, machine⟩ next ∧
      next.Fails program error := by
  obtain ⟨after, failed⟩ := failed
  cases instructions with
  | nil => cases failed
  | cons code rest =>
      rw [sequence_cons] at failed
      rcases bind_eq_some.mp failed with ⟨_, _, inner, same⟩ | ⟨ending, left, ended, failed⟩
      · cases same
        exact ⟨_, .first, after, inner⟩
      by_cases normal : ending = .normal
      · rw [if_pos normal] at failed
        subst normal
        exact ⟨_, .next ended, after, failed⟩
      · rw [if_neg normal] at failed
        cases failed

theorem labelled_overflow (overflow : error.isOverflow = true) {site : Site} {kind : BlockKind}
    {body rest : List Instruction} {position : Nat}
    (failed : Fails program error ⟨fuel + 1, .labelled site kind body position rest, machine⟩) :
    ∃ next, Starts program ⟨fuel + 1, .labelled site kind body position rest, machine⟩ next ∧
      next.Fails program error := by
  have closes : NeverOverflows (onStack closeBlock >>= fun _ => pure Ending.normal) :=
    .bind (.onStack closeBlock_failsLocally) fun _ => .pure _
  obtain ⟨after, failed⟩ := failed
  cases rest with
  | nil =>
      have other := closes machine error after failed
      rw [overflow] at other
      cases other
  | cons code rest =>
      rw [labelled_cons] at failed
      rcases bind_eq_some.mp failed with ⟨_, _, inner, same⟩ | ⟨ending, left, ended, failed⟩
      · cases same
        exact ⟨_, .labelledFirst, after, inner⟩
      match ending, kind with
      | .normal, _ => exact ⟨_, .labelledNext ended, after, failed⟩
      | .branch 0, .block => cases failed
      | .branch 0, .loop =>
          cases top : left.stack.topLabel? with
          | none =>
              simp [settle, top] at failed
              rw [← failed.1] at overflow
              cases overflow
          | some label =>
              refine ⟨_, .restart ended top, after, ?_⟩
              simpa [settle, top] using failed
      | .branch (depth + 1), _ => cases failed
      | .returned, _ => cases failed

theorem instruction_overflow (overflow : error.isOverflow = true) {site : Site} {position : Nat}
    {code : Instruction}
    (failed : Fails program error ⟨fuel + 1, .instruction site position code, machine⟩) :
    ∃ next, Starts program ⟨fuel + 1, .instruction site position code, machine⟩ next ∧
      next.Fails program error := by
  obtain ⟨after, failed⟩ := failed
  cases code with
  | structured kind label body span => exact ⟨_, .inside, after, failed⟩
  | plain opcode operand span =>
      by_cases isCall : opcode = .call
      · subst isCall
        rcases operand with _ | index | literal
        · cases failed
          cases overflow
        · rw [instruction_call] at failed
          rcases bind_eq_some.mp failed with ⟨_, _, inner, same⟩ | ⟨_, left, ended, failed⟩
          · cases same
            exact ⟨_, .callee, after, inner⟩
          · cases failed
        · cases failed
          cases overflow
      · rw [instruction, if_neg isCall] at failed
        have other := NeverOverflows.onStack (Operation.perform_failsLocally _ _ _) _ _ _ failed
        rw [overflow] at other
        cases other

/-- A task that ends with an overflow is a call that is refused, or it starts
another task that ends with it. -/
theorem Fails.refuses_or_starts (overflow : error.isOverflow = true) {moment : Moment}
    (failed : moment.Fails program error) :
    moment.Refuses program error ∨
      ∃ next, Starts program moment next ∧ next.Fails program error := by
  obtain ⟨fuel, task, machine⟩ := moment
  cases fuel with
  | zero => cases task <;> obtain ⟨after, failed⟩ := failed <;> cases failed
  | succ fuel =>
      cases task with
      | call index => exact call_overflow overflow failed
      | sequence site position instructions => exact .inr (sequence_overflow failed)
      | labelled site kind body position rest => exact .inr (labelled_overflow overflow failed)
      | instruction site position code => exact .inr (instruction_overflow overflow failed)

/-- A run that ends with an overflow goes through a call that is refused. -/
theorem Fails.reaches_refusal (overflow : error.isOverflow = true) {moment : Moment}
    (failed : moment.Fails program error) :
    ∃ next, Reaches program moment next ∧ next.Refuses program error := by
  induction enough : moment.fuel generalizing moment with
  | zero =>
      obtain ⟨fuel, task, machine⟩ := moment
      obtain rfl : fuel = 0 := enough
      cases task <;> obtain ⟨after, failed⟩ := failed <;> cases failed
  | succ fuel ih =>
      rcases failed.refuses_or_starts overflow with refused | ⟨next, started, failed⟩
      · exact ⟨moment, .refl, refused⟩
      · have spent : moment.fuel = next.fuel + 1 := by
          cases started <;> rfl
        obtain ⟨last, reached, refused⟩ := ih failed (by omega)
        exact ⟨last, .head started reached, refused⟩

end Overflow

/-- A call is refused for an overflow exactly while as many activations are
on the stack as the limit allows, and the error gives the limit. -/
theorem refuses_iff_of_reaches {start : Moment} {fuel index bound : Nat} {machine : Machine}
    (reached : Reaches program start ⟨fuel, .call index, machine⟩)
    (sound : start.Sound program) :
    Refuses program (.callStackOverflow bound) ⟨fuel, .call index, machine⟩ ↔
      bound = program.maxCallDepth ∧ machine.stack.activations = program.maxCallDepth := by
  obtain ⟨values, entries, laid, marked, counted, below⟩ := Reaches.sound reached sound
  simp only at counted below
  constructor
  · rintro ⟨after, refused⟩
    by_cases admitted : machine.depth < program.maxCallDepth
    · rw [enter_of_lt program index admitted] at refused
      have other := startCall_neverOverflows program index _ _ _ refused
      cases other
    · rw [enter_of_le program index (by omega)] at refused
      cases refused
      exact ⟨rfl, by omega⟩
  · rintro ⟨rfl, full⟩
    exact ⟨machine, enter_of_le program index (by omega)⟩

end Moment

end Execution

namespace Program

open Execution

/-- A call from outside under a lower limit is one under a higher limit cut
short. -/
theorem invoke_cutShort (module : Module) (fuel index : Nat) (arguments : List Int32)
    {limit more : Nat} (ordered : limit ≤ more) :
    CutShort limit ((ofModule module limit).invoke fuel index arguments)
      ((ofModule module more).invoke fuel index arguments) := by
  have called := (cutShort (ofModule module limit) ordered fuel).1 index
  intro machine
  rw [invoke_apply, invoke_apply]
  have same : (ofModule module more).callee index = (ofModule module limit).callee index := rfl
  rw [same]
  cases found : (ofModule module limit).callee index with
  | error error =>
      refine .inr ⟨rfl, ?_⟩
      intro other after failed
      cases failed
      unfold callee at found
      split at found
      · cases found
      · cases found
        rfl
  | ok callee =>
      simp only
      split
      · rw [collect_apply, collect_apply]
        rcases called ⟨.ofEntries (Entry.ofValues arguments.reverse ++ []), 0⟩ with
          ⟨after, refused⟩ | ⟨same, never⟩
        · have refused : call (ofModule module limit) fuel index _ = _ := refused
          rw [refused]
          exact .inl ⟨_, rfl⟩
        · have same : call (ofModule module limit) fuel index _ =
            call (ofModule module more) fuel index _ := same
          rw [← same]
          refine .inr ⟨rfl, ?_⟩
          intro error after failed
          obtain ⟨⟨outcome, left⟩, ended, given⟩ := Option.map_eq_some_iff.mp failed
          cases outcome with
          | error other =>
              cases given
              exact never error left ended
          | ok value => cases given
      · refine .inr ⟨rfl, ?_⟩
        intro error after failed
        cases failed
        rfl

/-- A call from outside that ends with an error about too many calls fails as
a run. -/
theorem fails_of_invoke {program : Program} {fuel index bound : Nat} {arguments : List Int32}
    {machine after : Machine}
    (ended : program.invoke fuel index arguments machine =
      some (.error (.callStackOverflow bound), after)) :
    (Moment.invoked fuel index arguments).Fails program (.callStackOverflow bound) := by
  rw [invoke_apply] at ended
  cases found : program.callee index with
  | error error =>
      rw [found] at ended
      cases ended
      unfold callee at found
      split at found <;> cases found
  | ok callee =>
      simp only [found] at ended
      split at ended
      · rw [collect_apply, ← Stack.pushValues_ofEntries [] arguments] at ended
        obtain ⟨⟨outcome, left⟩, called, given⟩ := Option.map_eq_some_iff.mp ended
        cases outcome with
        | error other =>
            cases given
            exact ⟨left, called⟩
        | ok value => cases given
      · cases ended

/-- The limit of active calls cuts runs short and never changes them.  A call
that ends under a limit without an overflow ends in the same way under every
higher limit, and one that overflows under a limit overflows under every lower
one.  An overflow gives the limit, and a call is refused for it only while as
many activations are on the stack as the limit allows. -/
theorem callDepthLimit (module : Module) (index : Nat) (arguments : List Int32)
    {limit more : Nat} (ordered : limit ≤ more) :
    (∀ fuel before outcome after,
      (ofModule module limit).invoke fuel index arguments before = some (outcome, after) →
      (∀ bound, outcome ≠ .error (.callStackOverflow bound)) →
      (ofModule module more).invoke fuel index arguments before = some (outcome, after)) ∧
    (∀ fuel before after,
      (ofModule module more).invoke fuel index arguments before =
        some (.error (.callStackOverflow more), after) →
      ∃ left, (ofModule module limit).invoke fuel index arguments before =
        some (.error (.callStackOverflow limit), left)) ∧
    (∀ fuel before bound after,
      (ofModule module limit).invoke fuel index arguments before =
        some (.error (.callStackOverflow bound), after) →
      bound = limit ∧ ∃ refused,
        Moment.Reaches (ofModule module limit) (.invoked fuel index arguments) refused ∧
        refused.Refuses (ofModule module limit) (.callStackOverflow limit)) ∧
    ∀ fuel rest callee machine bound,
      Moment.Reaches (ofModule module limit) (.invoked fuel index arguments)
        ⟨rest, .call callee, machine⟩ →
      (Moment.Refuses (ofModule module limit) (.callStackOverflow bound)
          ⟨rest, .call callee, machine⟩ ↔
        bound = limit ∧ machine.stack.activations = limit) := by
  refine ⟨?_, ?_, ?_, ?_⟩
  · intro fuel before outcome after ended other
    rcases invoke_cutShort module fuel index arguments ordered before with
      ⟨left, refused⟩ | ⟨same, -⟩
    · rw [ended] at refused
      cases refused
      exact absurd rfl (other limit)
    · rw [← same]
      exact ended
  · intro fuel before after ended
    rcases invoke_cutShort module fuel index arguments ordered before with
      refused | ⟨same, never⟩
    · exact refused
    · rw [ended] at same
      cases never _ _ same
  · intro fuel before bound after ended
    rcases invoke_cutShort module fuel index arguments (Nat.le_refl limit) before with
      ⟨left, refused⟩ | ⟨-, never⟩
    · rw [ended] at refused
      cases refused
      exact ⟨rfl, (fails_of_invoke ended).reaches_refusal rfl⟩
    · cases never _ _ ended
  · intro fuel rest callee machine bound reached
    exact Moment.refuses_iff_of_reaches reached (Moment.sound_invoked _ _ _ _)

/-- A function that calls itself without an end. -/
def endlessCall : FunctionDefinition where
  index := 0
  typeIndex := 0
  frame := .ofParams [] []
  body := [.plain .call (some (.index 0)) .origin]

theorem callDepthLimit_endlessCall :
    (∃ left, (ofModule ⟨none, [.function endlessCall], .empty⟩ 2).invoke 12 0 [] .idle =
      some (.error (.callStackOverflow 2), left)) ∧
    ∃ left, (ofModule ⟨none, [.function endlessCall], .empty⟩ 3).invoke 12 0 [] .idle =
      some (.error (.callStackOverflow 3), left) := by
  have overflows : ∃ left,
      (ofModule ⟨none, [.function endlessCall], .empty⟩ 3).invoke 12 0 [] .idle =
        some (.error (.callStackOverflow 3), left) := ⟨_, rfl⟩
  obtain ⟨left, ended⟩ := overflows
  have ordered : 2 ≤ 3 := by decide
  exact ⟨(callDepthLimit _ 0 [] ordered).2.1 12 .idle left ended, left, ended⟩

end Program

end WatMachine
