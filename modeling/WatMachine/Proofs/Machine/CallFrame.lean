import Mathlib.Control.Monad.Basic
import WatMachine.Proofs.Machine.Refinement

/-!
# What a call leaves of the stack

A call that returns has taken its arguments off the innermost scope and put
its results in their place.  Whatever stood below the arguments, values,
labels and the activations of callers with their variables, is there as
before, however the functions that ran branched, returned or used their
variables.
-/

namespace WatMachine

open Entry

namespace Entry

/-- The entries of a stack are the values of its innermost scope above a
marker or nothing. -/
theorem exists_scope (entries : List Entry) :
    ∃ values rest, entries = ofValues values ++ rest ∧ MarkerLed rest := by
  induction entries with
  | nil => exact ⟨[], [], rfl, rfl⟩
  | cons entry entries ih =>
      cases entry with
      | value number =>
          obtain ⟨values, rest, rfl, marked⟩ := ih
          exact ⟨number :: values, rest, rfl, marked⟩
      | label marker => exact ⟨[], .label marker :: entries, rfl, rfl⟩
      | activation frame => exact ⟨[], .activation frame :: entries, rfl, rfl⟩

end Entry

namespace Evaluation

variable {program : Program} {fuel depth index : Nat} {values below after : List Int32}
  {function : FunctionDefinition} {frame : Frame}

/-- A call ends by putting as many results on a scope as its function has. -/
theorem exists_results_of_leave {template : Frame} {completion : Completion 0}
    (fits : completion.Fits template)
    (left : leave template.resultCount below completion = .ok after) :
    ∃ results, after = results ++ below ∧ results.length = template.resultCount := by
  cases completion with
  | normal workspace =>
      obtain ⟨⟨results, rest⟩, taken, ended⟩ := Workspace.bind_eq_ok.mp left
      cases ended
      exact ⟨results, rfl, (Workspace.split_eq_ok.mp taken).2⟩
  | branch depth workspace => exact depth.elim0
  | returned results =>
      cases left
      exact ⟨results, rfl, fits⟩

/-- A call that returns exchanges its arguments for its results. -/
theorem call_exchanges
    (ended : (call program fuel depth index values).run = some (.ok after)) :
    ∃ function arguments results below, program.definition index = .ok function ∧
      values = arguments ++ below ∧ arguments.length = function.frame.argumentCount ∧
      after = results ++ below ∧ results.length = function.frame.resultCount := by
  cases fuel with
  | zero => cases ended
  | succ fuel =>
      cases entered : enter program depth index values with
      | error error =>
          rw [call, entered] at ended
          cases ended
      | ok started =>
          obtain ⟨function, frame, below⟩ := started
          obtain ⟨-, defined, arguments, shape, counted, -⟩ := exists_arguments_of_enter entered
          rw [call_of_enter program entered] at ended
          obtain ⟨error, -, failed⟩ | ⟨completion, ran, left⟩ := bind_eq_some.mp ended
          · cases failed
          · have fits : completion.Fits function.frame :=
              (fits_of_run program function.frame fuel).1 _ _ _ _ _ (enter_fits entered) ran
            obtain ⟨results, same, given⟩ := exists_results_of_leave fits (Option.some.inj left)
            exact ⟨function, arguments, results, below, defined, shape, counted, same, given⟩

end Evaluation

namespace Execution

/-- A call that returns leaves the stack as it was below its arguments, with
as many results as its function has in their place, and as many active calls
as before.  This holds in every state, also in one that no program leads to. -/
theorem call_keeps_callers (module : Module) (maxCallDepth fuel index : Nat)
    {machine after : Machine}
    (ended : call (.ofModule module maxCallDepth) fuel index machine = some (.ok (), after)) :
    ∃ (function : FunctionDefinition) (below : Stack) (arguments results : List Int32),
      (Program.ofModule module maxCallDepth).definition index = .ok function ∧
      machine.stack = below.pushValues arguments ∧
      arguments.length = function.frame.argumentCount ∧
      after.stack = below.pushValues results ∧
      results.length = function.frame.resultCount ∧
      after.depth = machine.depth := by
  obtain ⟨stack, depth⟩ := machine
  obtain ⟨values, rest, shape, marked⟩ := exists_scope stack.entries
  obtain rfl : stack = .ofEntries (ofValues values ++ rest) := Stack.ext shape
  obtain ⟨result, evaluates, ended, left, same, matched⟩ :=
    (evaluated (.ofModule module maxCallDepth) fuel).1 _ _ _ _ _ marked ended
  cases same
  cases matched with
  | ok remaining =>
      obtain ⟨function, arguments, results, below, defined, rfl, counted, rfl, given⟩ :=
        Evaluation.call_exchanges evaluates
      refine ⟨function, .ofEntries (ofValues below ++ rest), arguments.reverse, results.reverse,
        defined, ?_, ?_, ?_, ?_, rfl⟩
      · simp
      · rw [List.length_reverse, counted]
      · simp
      · rw [List.length_reverse, given]

/-- Two functions, one of which calls the other and then branches out of the
block that it is in and further than there are blocks. -/
def farBranch : List FunctionDefinition :=
  [{ index := 0, typeIndex := 0
     frame := .ofParams [.anonymous .i32, .anonymous .i32] [.i32]
     body := [.structured .block none
       [.plain .localGet (some (.index 0)) .origin, .plain .localGet (some (.index 1)) .origin,
         .plain .call (some (.index 1)) .origin, .plain .localTee (some (.index 0)) .origin,
         .plain .br (some (.index 7)) .origin] .origin] },
   { index := 1, typeIndex := 1
     frame := .ofParams [.anonymous .i32] [.i32]
     body := [.plain .i32Const (some (.literal 5)) .origin,
       .plain .localSet (some (.index 0)) .origin, .plain .localGet (some (.index 0)) .origin,
       .plain .functionReturn none .origin] }]

/-- A stack on which a caller has a variable and an open loop, with a value
below the caller and three more above the label. -/
def farBranchStack : Stack :=
  .ofEntries [.value 3, .value 2, .value 1, .label (.start .loop),
    .activation (.ofParams [{ type := .i32, name := none, value := 9 }] []), .value 8]

theorem call_keeps_callers_farBranch :
    call (.ofModule ⟨none, farBranch.map .function, .empty⟩ 6) 20 0 ⟨farBranchStack, 4⟩ =
      some (.ok (), ⟨(farBranchStack.drop 2).pushValues [5], 4⟩) ∧
    ∃ (below : Stack) (arguments results : List Int32),
      farBranchStack = below.pushValues arguments ∧ arguments.length = 2 ∧
      (farBranchStack.drop 2).pushValues [5] = below.pushValues results ∧ results.length = 1 := by
  have ended : call (.ofModule ⟨none, farBranch.map .function, .empty⟩ 6) 20 0
      ⟨farBranchStack, 4⟩ = some (.ok (), ⟨(farBranchStack.drop 2).pushValues [5], 4⟩) := by
    decide +kernel
  obtain ⟨function, below, arguments, results, defined, before, counted, left, given, -⟩ :=
    call_keeps_callers _ 6 20 0 ended
  cases defined
  exact ⟨ended, below, arguments, results, before, counted, left, given⟩

end Execution

end WatMachine
