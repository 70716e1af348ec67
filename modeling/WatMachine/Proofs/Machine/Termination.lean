import WatMachine.Proofs.Machine.DepthLimit

/-!
# Termination

The limit of active calls bounds how deep calls are nested, so only a loop can
keep a call from ending, and a loop starts again only for a branch that is
written inside it and counts out to it.  Where no branch does, every call ends.

The argument is by the number of calls that may still become active, and for
each such number by the structure of function bodies.
-/

namespace WatMachine

namespace Instruction

mutual

/-- Whether no branch goes back to a loop, inside blocks of some kinds, given
innermost first. -/
def isForward (enclosing : List BlockKind) : Instruction → Bool
  | plain .br (some (.index depth)) _ => enclosing[depth]? != some .loop
  | plain .brIf (some (.index depth)) _ => enclosing[depth]? != some .loop
  | plain _ _ _ => true
  | structured kind _ body _ => areForward (kind :: enclosing) body

def areForward (enclosing : List BlockKind) : List Instruction → Bool
  | [] => true
  | first :: rest => first.isForward enclosing && areForward enclosing rest

end

mutual

/-- Whether an instruction neither is nor contains a loop. -/
def isLoopFree : Instruction → Bool
  | plain _ _ _ => true
  | structured kind _ body _ => kind != .loop && areLoopFree body

def areLoopFree : List Instruction → Bool
  | [] => true
  | first :: rest => first.isLoopFree && areLoopFree rest

end

mutual

theorem isForward_of_isLoopFree {enclosing : List BlockKind} (blocks : .loop ∉ enclosing) :
    ∀ {code : Instruction}, code.isLoopFree = true → code.isForward enclosing = true
  | plain opcode operand span, _ => by
      have outside (depth : Nat) : enclosing[depth]? ≠ some .loop :=
        fun found => blocks (List.mem_of_getElem? found)
      unfold isForward
      split <;> simp_all
  | structured kind label body span, free => by
      rw [isLoopFree, Bool.and_eq_true, bne_iff_ne] at free
      have inner : .loop ∉ kind :: enclosing := by
        rw [List.mem_cons, not_or]
        exact ⟨free.1.symm, blocks⟩
      rw [isForward]
      exact areForward_of_areLoopFree inner free.2

theorem areForward_of_areLoopFree {enclosing : List BlockKind} (blocks : .loop ∉ enclosing) :
    ∀ {body : List Instruction}, areLoopFree body = true → areForward enclosing body = true
  | [], _ => rfl
  | first :: rest, free => by
      rw [areLoopFree, Bool.and_eq_true] at free
      rw [areForward, Bool.and_eq_true]
      exact ⟨isForward_of_isLoopFree blocks free.1, areForward_of_areLoopFree blocks free.2⟩

end

end Instruction

namespace Module

/-- Whether no branch in the functions of a module goes back to a loop. -/
def isForward (module : Module) : Bool :=
  module.functions.all fun function => Instruction.areForward [] function.body

/-- Whether there is no loop in the functions of a module. -/
def isLoopFree (module : Module) : Bool :=
  module.functions.all fun function => Instruction.areLoopFree function.body

theorem isForward_of_isLoopFree {module : Module} (free : module.isLoopFree = true) :
    module.isForward = true := by
  rw [isLoopFree, List.all_eq_true] at free
  rw [isForward, List.all_eq_true]
  intro function defined
  exact Instruction.areForward_of_areLoopFree (List.not_mem_nil) (free function defined)

end Module

namespace StackAction

variable {α β : Type} {post : α → Prop}

/-- Whether a condition holds of every value that an action gives. -/
def Gives (post : α → Prop) (action : StackAction α) : Prop :=
  ∀ stack value after, action stack = (.ok value, after) → post value

theorem Gives.pure {value : α} (holds : post value) : Gives post (pure value) := by
  intro stack found after ended
  cases ended
  exact holds

theorem Gives.throw (error : RuntimeError) : Gives post (throw error) := by
  intro stack found after ended
  cases ended

theorem Gives.bind {action : StackAction β} {next : β → StackAction α}
    (rest : ∀ value, Gives post (next value)) : Gives post (action >>= next) := by
  intro stack value after ended
  rw [bind_apply] at ended
  split at ended
  · exact rest _ _ _ _ ended
  · cases ended

end StackAction

namespace Operation

open StackAction

/-- Whether a branch on its way out would not go back to a loop, in blocks of
some kinds. -/
def GoesForward (enclosing : List BlockKind) (ending : Ending) : Prop :=
  ∀ depth, ending = .branch depth → enclosing[depth]? ≠ some .loop

variable {enclosing : List BlockKind}

theorem goesForward_normal : GoesForward enclosing .normal :=
  nofun

theorem goesForward_returned : GoesForward enclosing .returned :=
  nofun

theorem goesForward_branch {depth : Nat} :
    GoesForward enclosing (.branch depth) ↔ enclosing[depth]? ≠ some .loop := by
  constructor
  · intro forward
    exact forward depth rfl
  · rintro other _ ⟨⟩
    exact other

theorem returnFrom_goesForward (base resultCount : Nat) :
    Gives (GoesForward enclosing) (returnFrom base resultCount) :=
  .bind fun _ => .bind fun _ => .bind fun _ => .pure goesForward_returned

/-- A branch is on its way out of as many blocks as it counts. -/
theorem branch_goesForward {depth : Nat} (other : enclosing[depth]? ≠ some .loop)
    (base resultCount : Nat) : Gives (GoesForward enclosing) (branch base depth resultCount) := by
  have forward := goesForward_branch.mpr other
  refine .bind fun stack => ?_
  split
  · exact returnFrom_goesForward base resultCount
  · refine .bind fun carried => .bind fun target => ?_
    split
    · exact .bind fun _ => .pure forward
    · exact .bind fun _ => .pure forward

theorem branchIf_goesForward {depth : Nat} (other : enclosing[depth]? ≠ some .loop)
    (base resultCount : Nat) :
    Gives (GoesForward enclosing) (branchIf base depth resultCount) := by
  refine .bind fun condition => ?_
  split
  · exact .pure goesForward_normal
  · exact branch_goesForward other base resultCount

/-- An instruction that does not branch back to a loop does not end with a
branch to one. -/
theorem perform_goesForward {opcode : Keyword} {operand : Option Operand} {span : Source.Span}
    (forward : (Instruction.plain opcode operand span).isForward enclosing = true)
    (base : Nat) : Gives (GoesForward enclosing) (perform base opcode operand) := by
  cases opcode with
  | br =>
      refine .bind fun frame => ?_
      rcases operand with _ | depth | literal
      · exact .throw _
      · rw [Instruction.isForward, bne_iff_ne] at forward
        exact branch_goesForward forward base frame.resultCount
      · exact .throw _
  | brIf =>
      refine .bind fun frame => ?_
      rcases operand with _ | depth | literal
      · exact .throw _
      · rw [Instruction.isForward, bne_iff_ne] at forward
        exact branchIf_goesForward forward base frame.resultCount
      · exact .throw _
  | functionReturn => exact .bind fun frame => returnFrom_goesForward base frame.resultCount
  | localGet | localSet | localTee | i32Const =>
      exact .bind fun _ => .bind fun _ => .pure goesForward_normal
  | nop => exact .pure goesForward_normal
  | i32Eqz | drop | i32Add | i32Sub | i32And | i32Or | i32Eq | i32LtS | i32GtU | i32GeS =>
      exact .bind fun _ => .pure goesForward_normal
  | _ => exact .throw _

end Operation

namespace Execution

open Operation

variable {α β : Type} {post : α → Prop} {later : β → Prop} {depth : Nat}

/-- Whether a step has ended with as many active calls as a number says, and a
condition holds of what it gives. -/
def Meets (depth : Nat) (post : α → Prop) (ended : Option (Except RuntimeError α × Machine)) :
    Prop :=
  ∃ outcome after, ended = some (outcome, after) ∧ after.depth = depth ∧
    ∀ value, outcome = .ok value → post value

theorem meets_ok {value : α} {after : Machine} (same : after.depth = depth) (holds : post value) :
    Meets depth post (some (.ok value, after)) := by
  refine ⟨_, after, rfl, same, ?_⟩
  rintro _ ⟨⟩
  exact holds

theorem meets_error {error : RuntimeError} {after : Machine} (same : after.depth = depth) :
    Meets depth post (some (.error error, after)) :=
  ⟨_, after, rfl, same, nofun⟩

theorem Meets.bind {step : Execution α} {next : α → Execution β} {machine : Machine}
    (first : Meets depth post (step machine))
    (rest : ∀ value after, step machine = some (.ok value, after) → after.depth = depth →
      post value → Meets depth later (next value after)) :
    Meets depth later ((step >>= next) machine) := by
  obtain ⟨outcome, after, ended, same, holds⟩ := first
  rw [bind_apply, ended]
  cases outcome with
  | error error => exact meets_error same
  | ok value => exact rest value after ended same (holds value rfl)

theorem onStack_meets {action : StackAction α} (gives : action.Gives post) (machine : Machine) :
    Meets machine.depth post (onStack action machine) := by
  refine ⟨_, _, rfl, rfl, ?_⟩
  intro value given
  exact gives machine.stack value _ (Prod.ext given rfl)

theorem onStack_meets_true (action : StackAction α) (machine : Machine) :
    Meets machine.depth (fun _ => True) (onStack action machine) :=
  onStack_meets (fun _ _ _ _ => trivial) machine

theorem Meets.within {first second : Execution α} {machine : Machine}
    (met : Meets depth post (first machine)) (grows : Within first second) :
    Meets depth post (second machine) := by
  obtain ⟨outcome, after, ended, met⟩ := met
  exact ⟨outcome, after, grows _ _ ended, met⟩

theorem Meets.asCall {step : Execution α} {machine : Machine}
    (met : Meets (depth + 1) post (step { machine with depth := machine.depth + 1 })) :
    Meets depth post (asCall step machine) := by
  obtain ⟨outcome, after, ended, same, holds⟩ := met
  rw [asCall_apply, ended]
  exact ⟨outcome, _, rfl, by simp [same], holds⟩

section Bodies

variable {program : Program} {base : Nat} {enclosing : List BlockKind} {machine : Machine}

theorem sequence_cons_meets {first : Instruction} {rest : List Instruction}
    (begins : ∃ fuel, Meets depth (GoesForward enclosing)
      (instruction program fuel base first machine))
    (goesOn : ∀ after : Machine, after.depth = depth →
      ∃ fuel, Meets depth (GoesForward enclosing) (sequence program fuel base rest after)) :
    ∃ fuel, Meets depth (GoesForward enclosing)
      (sequence program fuel base (first :: rest) machine) := by
  obtain ⟨fuel, outcome, after, ended, same, forward⟩ := begins
  by_cases normal : outcome = .ok .normal
  · obtain ⟨more, others⟩ := goesOn after same
    refine ⟨max fuel more + 1, ?_⟩
    rw [sequence_cons, bind_apply,
      instruction_within program (Nat.le_max_left fuel more) base first _ _ ended, normal]
    exact others.within (sequence_within program (Nat.le_max_right fuel more) base rest)
  · refine ⟨fuel + 1, ?_⟩
    rw [sequence_cons, bind_apply, ended]
    cases outcome with
    | error error => exact meets_error same
    | ok ending =>
        have other : ending ≠ .normal := fun same => normal (congrArg _ same)
        simp only [if_neg other]
        exact meets_ok same (forward ending rfl)

/-- What a block makes of the ending of its body takes no fuel, unless it is a
loop that starts again. -/
theorem settle_meets {kind : BlockKind} {body : List Instruction} {ending : Ending}
    (same : machine.depth = depth) (forward : GoesForward (kind :: enclosing) ending) :
    Meets depth (GoesForward enclosing) (settle program 0 base kind body ending machine) := by
  subst same
  match ending, kind with
  | .normal, _ =>
      refine (onStack_meets_true closeBlock machine).bind fun _ after _ same _ => ?_
      exact meets_ok same goesForward_normal
  | .branch 0, .block => exact meets_ok rfl goesForward_normal
  | .branch 0, .loop => exact absurd rfl (forward 0 rfl)
  | .branch (depth + 1), _ => exact meets_ok rfl (goesForward_branch.mpr (forward _ rfl))
  | .returned, _ => exact meets_ok rfl goesForward_returned

theorem labelled_meets {kind : BlockKind} {body : List Instruction}
    (inner : ∃ fuel, Meets depth (GoesForward (kind :: enclosing))
      (sequence program fuel base body machine)) :
    ∃ fuel, Meets depth (GoesForward enclosing)
      (labelled program fuel base kind body body machine) := by
  obtain ⟨fuel, ran⟩ := inner
  have settled : Meets depth (GoesForward enclosing)
      ((sequence program fuel base body >>= settle program 0 base kind body) machine) :=
    ran.bind fun ending after _ same forward => settle_meets same forward
  obtain ⟨outcome, after, ended, met⟩ := settled
  obtain ⟨enough, ended⟩ := labelled_of_sequence_settle program ended
  exact ⟨enough, outcome, after, ended, met⟩

/-- Whether every call ends that starts while some number of calls is
active. -/
def CallsEnd (program : Program) (depth : Nat) : Prop :=
  ∀ index machine, machine.depth = depth →
    ∃ fuel, Meets depth (fun _ => True) (call program fuel index machine)

mutual

/-- An instruction that does not branch back to a loop ends if all calls do. -/
theorem instruction_meets (calls : CallsEnd program depth) (base : Nat) :
    ∀ {code : Instruction} {enclosing : List BlockKind} {machine : Machine},
      code.isForward enclosing = true → machine.depth = depth →
      ∃ fuel, Meets depth (GoesForward enclosing) (instruction program fuel base code machine)
  | .plain opcode operand span, enclosing, machine, forward, same => by
      by_cases isCall : opcode = .call
      · subst isCall
        rcases operand with _ | index | literal
        · exact ⟨1, meets_error same⟩
        · obtain ⟨fuel, called⟩ := calls index machine same
          refine ⟨fuel + 1, ?_⟩
          rw [instruction_call]
          exact called.bind fun _ after _ same _ => meets_ok same goesForward_normal
        · exact ⟨1, meets_error same⟩
      · refine ⟨1, ?_⟩
        rw [instruction, if_neg isCall, ← same]
        exact onStack_meets (perform_goesForward forward base) machine
  | .structured kind label body span, enclosing, machine, forward, same => by
      rw [Instruction.isForward] at forward
      have labelled : { machine with stack := machine.stack.push (.label (.start kind)) }.depth =
          depth := same
      obtain ⟨fuel, ran⟩ := labelled_meets (sequence_meets calls base forward labelled)
      exact ⟨fuel + 1, ran⟩

theorem sequence_meets (calls : CallsEnd program depth) (base : Nat) :
    ∀ {body : List Instruction} {enclosing : List BlockKind} {machine : Machine},
      Instruction.areForward enclosing body = true → machine.depth = depth →
      ∃ fuel, Meets depth (GoesForward enclosing) (sequence program fuel base body machine)
  | [], _, _, _, same => ⟨1, meets_ok same goesForward_normal⟩
  | first :: rest, enclosing, machine, forward, same => by
      rw [Instruction.areForward, Bool.and_eq_true] at forward
      exact sequence_cons_meets (instruction_meets calls base forward.1 same)
        fun after same => sequence_meets calls base forward.2 same

end

end Bodies

section Calls

variable {program : Program}

theorem startCall_meets (program : Program) (index : Nat) (machine : Machine) :
    Meets machine.depth (fun started => program.definition index = .ok started.1)
      (startCall program index machine) := by
  cases found : program.definition index with
  | error error =>
      rw [startCall, found]
      exact meets_error rfl
  | ok function =>
      rw [startCall, found]
      refine (onStack_meets_true _ machine).bind fun arguments after _ same _ => ?_
      rw [bind_apply, get_apply]
      exact meets_ok same rfl

/-- Every call ends in a program whose functions do not branch back to
loops. -/
theorem callsEnd (forward : ∀ index function, program.definition index = .ok function →
      Instruction.areForward [] function.body = true) (depth : Nat) :
    CallsEnd program depth := by
  -- On the calls that the limit still allows: a body runs one call deeper, with one left less.
  induction left : program.maxCallDepth - depth generalizing depth with
  | zero =>
      intro index machine same
      refine ⟨1, ?_⟩
      rw [call, bind_apply, enter_of_le program index (by omega)]
      exact meets_error same
  | succ left ih =>
      intro index machine same
      have calls := ih (depth + 1) (by omega)
      have admitted := startCall_meets program index machine
      rw [← enter_of_lt program index (by omega), same] at admitted
      obtain ⟨outcome, after, entered, same, found⟩ := admitted
      cases outcome with
      | error error =>
          refine ⟨1, ?_⟩
          rw [call, bind_apply, entered]
          exact meets_error same
      | ok started =>
          obtain ⟨function, base⟩ := started
          have inside : { after with depth := after.depth + 1 }.depth = depth + 1 := by simp [same]
          obtain ⟨fuel, ran⟩ :=
            sequence_meets calls base (forward index function (found _ rfl)) inside
          refine ⟨fuel + 1, ?_⟩
          rw [call, bind_apply, entered]
          refine (Meets.asCall ran).bind fun ending last _ same _ => ?_
          cases ending with
          | branch target => exact meets_error same
          | normal | returned =>
              rw [← same]
              exact onStack_meets_true _ last

end Calls

end Execution

namespace Program

open Execution

theorem mem_functions_of_definition {module : Module} {maxCallDepth index : Nat}
    {function : FunctionDefinition}
    (found : (ofModule module maxCallDepth).definition index = .ok function) :
    function ∈ module.functions := by
  unfold definition callee at found
  cases listed : (ofModule module maxCallDepth).callee? index with
  | none =>
      rw [listed] at found
      cases found
  | some callee =>
      rw [listed] at found
      cases callee with
      | imported declaration frame => cases found
      | defined definition =>
          cases found
          obtain ⟨later, earlier, split, -⟩ := List.lookup_eq_some_iff.mp listed
          have entry : (index, Callee.defined function) ∈
              (ofModule module maxCallDepth).functions := by
            rw [split]
            exact List.mem_append_right later List.mem_cons_self
          rw [ofModule, List.mem_reverse, List.mem_append] at entry
          rcases entry with defined | imported
          · obtain ⟨_, written, same⟩ := List.mem_map.mp defined
            cases same
            exact written
          · obtain ⟨declaration, -, same⟩ := List.mem_filterMap.mp imported
            unfold Import.callee? at same
            split at same <;> cases same

/-- Every call from outside ends, with values or with an error, in a module in
which no branch goes back to a loop, and so in every module without loops,
whatever its functions call. -/
theorem invoke_ends (module : Module) :
    (module.isLoopFree = true → module.isForward = true) ∧
    (module.isForward = true → ∀ maxCallDepth index arguments machine,
      ∃ fuel outcome after, (ofModule module maxCallDepth).invoke fuel index arguments machine =
        some (outcome, after)) := by
  refine ⟨Module.isForward_of_isLoopFree, ?_⟩
  intro forward maxCallDepth index arguments machine
  have bodies : ∀ index function,
      (ofModule module maxCallDepth).definition index = .ok function →
      Instruction.areForward [] function.body = true := by
    intro index function found
    exact List.all_eq_true.mp forward function (mem_functions_of_definition found)
  obtain ⟨fuel, outcome, after, ended, -⟩ := callsEnd bodies 0 index
    ⟨.ofEntries (Entry.ofValues arguments.reverse ++ []), 0⟩ rfl
  refine ⟨fuel, ?_⟩
  rw [invoke_apply]
  cases (ofModule module maxCallDepth).callee index with
  | error error => exact ⟨_, _, rfl⟩
  | ok callee =>
      simp only
      split
      · rw [collect_apply, ended]
        exact ⟨_, _, rfl⟩
      · exact ⟨_, _, rfl⟩

/-- Two functions that call each other without an end, one of them from a loop
that it leaves. -/
def endlessCalls : List FunctionDefinition :=
  [{ index := 0, typeIndex := 0, frame := .ofParams [] [],
     body := [.structured .block none [.structured .loop none
       [.plain .call (some (.index 1)) .origin, .plain .br (some (.index 1)) .origin] .origin]
       .origin] },
   { index := 1, typeIndex := 0, frame := .ofParams [] [],
     body := [.plain .call (some (.index 0)) .origin] }]

theorem invoke_ends_endlessCalls :
    let module : Module := ⟨none, endlessCalls.map .function, .empty⟩
    module.isLoopFree = false ∧ module.isForward = true ∧
    ∃ fuel outcome after,
      (ofModule module defaultMaxCallDepth).invoke fuel 0 [] .idle = some (outcome, after) := by
  have forward : Module.isForward ⟨none, endlessCalls.map .function, .empty⟩ = true := by decide
  exact ⟨by decide, forward, (invoke_ends _).2 forward defaultMaxCallDepth 0 [] .idle⟩

end Program

end WatMachine
