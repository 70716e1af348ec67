import WatMachine.Proofs.Machine.CallFrame
import WatMachine.Proofs.Machine.Positions

/-!
# Calls from outside do not disturb each other

Every call from outside that is made in the idle state and ends, with values
or with an error from anywhere inside it, leaves the idle state behind.  So in
a session every call has the outcome that it has alone, whatever other calls
are made before it.  The program with its functions and exports is no part of
the state that calls can change.
-/

namespace WatMachine

open Execution

/-- A call of a session: what is asked for, the outcome and the state that is
left. -/
structure Exchange where
  request : Request
  outcome : Except RuntimeError (List Int32)
  left : Machine

namespace Execution

theorem tryCatch_apply {α : Type} (step : Execution α) (handle : RuntimeError → Execution α)
    (machine : Machine) :
    (tryCatch step handle : Execution α) machine =
      match step machine with
      | some (.error error, after) => handle error after
      | ended => ended := by
  change (step machine).bind _ = _
  rcases step machine with _ | ⟨error | value, after⟩ <;> rfl

end Execution

namespace Program

/-- Calls that are made one after the other and end, each in the state that
the one before it leaves. -/
inductive Serves (program : Program) : Machine → List Exchange → Prop where
  | nil {machine : Machine} : Serves program machine []
  | cons {fuel : Nat} {machine : Machine} {exchange : Exchange} {others : List Exchange}
      (answered : program.answer fuel exchange.request machine =
        some (exchange.outcome, exchange.left))
      (rest : Serves program exchange.left others) :
      Serves program machine (exchange :: others)

section Calls

variable (program : Program) {fuel : Nat} (name : String) (arguments : List Int32)

theorem invokeExport_apply (machine : Machine) :
    program.invokeExport fuel name arguments machine =
      match program.export? name with
      | some ⟨_, .function, index⟩ => program.invoke fuel index arguments machine
      | some _ => some (.error (.exportNotFunction name), machine)
      | none => some (.error (.unknownExport name), machine) := by
  rw [invokeExport]
  rcases program.export? name with _ | ⟨_, kind, index⟩
  · rfl
  · cases kind <;> rfl

/-- A call of an export that need not exist forgives nothing but its
absence. -/
theorem callExtern_apply (machine : Machine) :
    program.callExtern fuel name arguments machine =
      match program.invokeExport fuel name arguments machine with
      | some (.error (.unknownExport _), after) => some (.ok [], after)
      | ended => ended := by
  rw [callExtern, tryCatch_apply]
  rcases program.invokeExport fuel name arguments machine with _ | ⟨error | values, after⟩
  · rfl
  · cases error <;> rfl
  · rfl

end Calls

section Fuel

variable (program : Program) {fuel more : Nat} (enough : fuel ≤ more)

include enough

theorem invoke_within (index : Nat) (arguments : List Int32) :
    Within (program.invoke fuel index arguments) (program.invoke more index arguments) := by
  intro machine outcome ended
  rw [invoke_apply] at ended ⊢
  cases found : program.callee index with
  | error error =>
      rw [found] at ended
      exact ended
  | ok callee =>
      simp only [found] at ended ⊢
      split at ended
      · rename_i same
        rw [collect_apply] at ended
        obtain ⟨inner, called, given⟩ := Option.map_eq_some_iff.mp ended
        rw [if_pos same, collect_apply, call_within program enough index _ _ called]
        exact congrArg some given
      · rename_i differ
        rw [if_neg differ]
        exact ended

theorem invokeExport_within (name : String) (arguments : List Int32) :
    Within (program.invokeExport fuel name arguments)
      (program.invokeExport more name arguments) := by
  intro machine outcome ended
  rw [invokeExport_apply] at ended ⊢
  split at ended
  · exact invoke_within program enough _ arguments machine outcome ended
  · exact ended
  · exact ended

/-- More fuel changes no outcome of a call from outside. -/
theorem answer_within (request : Request) :
    Within (program.answer fuel request) (program.answer more request) := by
  cases request with
  | function index arguments => exact invoke_within program enough index arguments
  | exported name arguments => exact invokeExport_within program enough name arguments
  | ifExported name arguments =>
      intro machine outcome ended
      rw [answer, callExtern_apply] at ended ⊢
      cases called : program.invokeExport fuel name arguments machine with
      | none =>
          rw [called] at ended
          cases ended
      | some result =>
          rw [invokeExport_within program enough name arguments machine result called]
          rw [called] at ended
          exact ended

end Fuel

section Idle

variable {program : Program} {fuel : Nat} {after : Machine}
  {outcome : Except RuntimeError (List Int32)}

theorem invoke_idle {index : Nat} {arguments : List Int32}
    (ended : program.invoke fuel index arguments .idle = some (outcome, after)) :
    after = .idle := by
  rcases invoke_cases ended with ⟨_, _, _, same⟩ | ⟨_, _, ⟨_, same, _⟩ | ⟨_, same, _⟩⟩
  · exact same
  · exact same
  · exact same

theorem invokeExport_idle {name : String} {arguments : List Int32}
    (ended : program.invokeExport fuel name arguments .idle = some (outcome, after)) :
    after = .idle := by
  rw [invokeExport_apply] at ended
  split at ended
  · exact invoke_idle ended
  · cases ended
    rfl
  · cases ended
    rfl

/-- Every call from outside that starts in the idle state and ends leaves the
idle state. -/
theorem answer_idle {request : Request}
    (ended : program.answer fuel request .idle = some (outcome, after)) : after = .idle := by
  cases request with
  | function index arguments => exact invoke_idle ended
  | exported name arguments => exact invokeExport_idle ended
  | ifExported name arguments =>
      rw [answer, callExtern_apply] at ended
      split at ended
      · rename_i called
        cases ended
        exact invokeExport_idle called
      · exact invokeExport_idle ended

/-- A call by index that returns gives as many values as its function has
results. -/
theorem length_of_invoke {index : Nat} {arguments values : List Int32} {machine : Machine}
    (ended : program.invoke fuel index arguments machine = some (.ok values, after)) :
    ∃ callee, program.callee index = .ok callee ∧ values.length = callee.frame.resultCount := by
  obtain ⟨_, _, failed, _⟩ |
    ⟨callee, found, ⟨_, _, failed⟩ | ⟨expected, _, result, evaluates, given⟩⟩ :=
      invoke_cases ended
  · cases failed
  · cases failed
  cases result with
  | error error => cases given
  | ok remaining =>
      obtain ⟨function, taken, results, below, defined, shape, counted, rfl, exactly⟩ :=
        Evaluation.call_exchanges evaluates
      have same : callee = .defined function := by
        rw [definition, found] at defined
        cases callee <;> cases defined
        rfl
      subst same
      have nothing : below.length = 0 := by
        have lengths := congrArg List.length shape
        rw [List.length_reverse, List.length_append] at lengths
        simp only [Callee.frame] at expected
        omega
      refine ⟨_, found, ?_⟩
      cases given
      simp only [List.length_reverse, List.length_append, nothing, Callee.frame, exactly]
      rfl

end Idle

section Sessions

variable {program : Program} {exchanges : List Exchange}

/-- The calls of a session that starts in the idle state are made in the idle
state, each of them. -/
theorem serves_idle_iff :
    Serves program .idle exchanges ↔
      ∀ exchange ∈ exchanges, exchange.left = .idle ∧
        ∃ fuel, program.answer fuel exchange.request .idle = some (exchange.outcome, .idle) := by
  induction exchanges with
  | nil => exact iff_of_true .nil (by simp)
  | cons exchange others ih =>
      rw [List.forall_mem_cons, ← ih]
      constructor
      · intro served
        cases served with
        | cons answered rest =>
            have back : exchange.left = .idle := answer_idle answered
            rw [back] at answered rest
            exact ⟨⟨back, _, answered⟩, rest⟩
      · rintro ⟨⟨back, fuel, answered⟩, rest⟩
        rw [← back] at answered rest
        rw [← back]
        exact .cons answered rest

/-- A call in the idle state has one outcome, with whatever fuel it ends. -/
theorem outcome_unique {request : Request} {fuel more : Nat}
    {first second : Except RuntimeError (List Int32)} {left after : Machine}
    (answered : program.answer fuel request .idle = some (first, left))
    (again : program.answer more request .idle = some (second, after)) : first = second := by
  have one := answer_within program (Nat.le_max_left fuel more) request _ _ answered
  have other := answer_within program (Nat.le_max_right fuel more) request _ _ again
  rw [one] at other
  cases other
  rfl

end Sessions

/-- Calls are isolated from each other.  After every call of a session the
state is the idle one in which the session started.  So every call has the
outcome that it has as the only one; the session may be shortened, calls
repeated and put in another order, and in no other session does the call have
another outcome.  A call by index that returns gives as many values as its
function has results. -/
theorem calls_isolated (module : Module) (maxCallDepth : Nat) {exchanges : List Exchange}
    (served : Serves (ofModule module maxCallDepth) .idle exchanges) :
    (∀ exchange ∈ exchanges, exchange.left = .idle) ∧
    (∀ exchange ∈ exchanges, Serves (ofModule module maxCallDepth) .idle [exchange]) ∧
    (∀ others, others ⊆ exchanges → Serves (ofModule module maxCallDepth) .idle others) ∧
    (∀ others, Serves (ofModule module maxCallDepth) .idle others →
      ∀ exchange ∈ exchanges, ∀ other ∈ others, other.request = exchange.request →
        other.outcome = exchange.outcome) ∧
    ∀ index arguments values left,
      ⟨.function index arguments, .ok values, left⟩ ∈ exchanges →
      ∃ callee, (ofModule module maxCallDepth).callee index = .ok callee ∧
        values.length = callee.frame.resultCount := by
  have each := serves_idle_iff.mp served
  have fewer (others : List Exchange) (inside : others ⊆ exchanges) :
      Serves (ofModule module maxCallDepth) .idle others := by
    apply serves_idle_iff.mpr
    intro exchange member
    exact each exchange (inside member)
  refine ⟨fun exchange member => (each exchange member).1, ?_, fewer, ?_, ?_⟩
  · intro exchange member
    apply fewer
    exact List.cons_subset.mpr ⟨member, List.nil_subset _⟩
  · intro others othersServed exchange member other otherMember same
    obtain ⟨-, fuel, answered⟩ := each exchange member
    obtain ⟨-, more, again⟩ := serves_idle_iff.mp othersServed other otherMember
    rw [same] at again
    exact outcome_unique again answered
  · intro index arguments values left member
    obtain ⟨-, fuel, answered⟩ := each _ member
    exact length_of_invoke answered

/-- A function that calls another one from inside a block, where it fails for
lack of a value, and an exported one that gives back its argument. -/
def failingInside : Module where
  id := none
  fields :=
    [.function ⟨0, 0, .ofParams [] [], [.structured .block none
        [.plain .i32Const (some (.literal 4)) .origin,
          .plain .call (some (.index 1)) .origin] .origin]⟩,
      .function ⟨1, 0, .ofParams [] [], [.structured .loop none
        [.plain .drop none .origin] .origin]⟩,
      .function ⟨2, 1, .ofParams [.anonymous .i32] [.i32],
        [.plain .localGet (some (.index 0)) .origin]⟩,
      .exported ⟨"same", .function, 2⟩]
  environment := .empty

theorem calls_isolated_failingInside :
    let failing : Exchange := ⟨.function 0 [], .error .stackUnderflow, .idle⟩
    let giving : Exchange := ⟨.exported "same" [7], .ok [7], .idle⟩
    let missing : Exchange := ⟨.ifExported "other" [], .ok [], .idle⟩
    Serves (ofModule failingInside 5) .idle [failing, giving, missing] ∧
      Serves (ofModule failingInside 5) .idle [giving, failing, giving] := by
  intro failing giving missing
  have fails : (ofModule failingInside 5).answer 12 (.function 0 []) .idle =
      some (.error .stackUnderflow, .idle) := by decide +kernel
  have gives : (ofModule failingInside 5).answer 12 (.exported "same" [7]) .idle =
      some (.ok [7], .idle) := by decide +kernel
  have lacks : (ofModule failingInside 5).answer 12 (.ifExported "other" []) .idle =
      some (.ok [], .idle) := by decide +kernel
  have served : Serves (ofModule failingInside 5) .idle [failing, giving, missing] :=
    .cons fails (.cons gives (.cons lacks .nil))
  exact ⟨served, (calls_isolated failingInside 5 served).2.2.1 _ (by simp)⟩

end Program

end WatMachine
