import Mathlib.Logic.Relation
import WatMachine.Proofs.Machine.Steps

/-!
# The moments of a run

Execution goes through tasks: calls, sequences, bodies of blocks and single
instructions.  A moment is a task about to be executed on a machine, and a
moment starts others, one for every way in which the execution of a task goes
on to another task.  So a run can be followed from its beginning to every
instruction that it executes, whether it ends or not.

A task also carries where its instructions stand in the text of their
function.  Execution does not look at this.
-/

namespace WatMachine

namespace Instruction

/-- The instructions that a path leads to, and the kinds of the blocks that
enclose them, outermost first.  A path gives the position of every enclosing
block among the instructions around it. -/
def block? : List Instruction → List Nat → Option (List BlockKind × List Instruction)
  | body, [] => some ([], body)
  | body, position :: path =>
      match body[position]? with
      | some (.structured kind _ inner _) =>
          (block? inner path).map fun (kinds, block) => (kind :: kinds, block)
      | _ => none

theorem block?_append (body : List Instruction) (path more : List Nat) :
    block? body (path ++ more) =
      (block? body path).bind fun (kinds, block) =>
        (block? block more).map fun (others, inner) => (kinds ++ others, inner) := by
  induction path generalizing body with
  | nil => simp [block?]
  | cons position path ih =>
      rw [List.cons_append, block?, block?]
      split
      · rw [ih]
        cases block? _ path with
        | none => rfl
        | some found => simp [Option.map_map, Function.comp_def]
      · rfl

end Instruction

namespace Execution

/-- Where instructions stand: the function, the place of the activation that
its call has on the stack, and the path to the enclosing block. -/
structure Site where
  function : FunctionDefinition
  base : Nat
  path : List Nat

/-- What is executed.  Instructions come with the position that the first of
them has in its block. -/
inductive Task where
  | call (index : Nat)
  | sequence (site : Site) (position : Nat) (instructions : List Instruction)
  | labelled (site : Site) (kind : BlockKind) (body : List Instruction) (position : Nat)
      (rest : List Instruction)
  | instruction (site : Site) (position : Nat) (code : Instruction)

/-- A task about to be executed. -/
structure Moment where
  fuel : Nat
  task : Task
  machine : Machine

namespace Moment

/-- Whether a task comes to its end before fuel runs out. -/
def Ends (program : Program) : Moment → Prop
  | ⟨fuel, .call index, machine⟩ => (call program fuel index machine).isSome
  | ⟨fuel, .sequence site _ instructions, machine⟩ =>
      (sequence program fuel site.base instructions machine).isSome
  | ⟨fuel, .labelled site kind body _ rest, machine⟩ =>
      (labelled program fuel site.base kind body rest machine).isSome
  | ⟨fuel, .instruction site _ code, machine⟩ =>
      (instruction program fuel site.base code machine).isSome

/-- What the execution of a task goes on to. -/
inductive Starts (program : Program) : Moment → Moment → Prop where
  | body {fuel index base : Nat} {function : FunctionDefinition} {machine after : Machine}
      (entered : enter program index machine = some (.ok (function, base), after)) :
      Starts program ⟨fuel + 1, .call index, machine⟩
        ⟨fuel, .sequence ⟨function, base, []⟩ 0 function.body,
          { after with depth := after.depth + 1 }⟩
  | first {fuel position : Nat} {site : Site} {code : Instruction} {rest : List Instruction}
      {machine : Machine} :
      Starts program ⟨fuel + 1, .sequence site position (code :: rest), machine⟩
        ⟨fuel, .instruction site position code, machine⟩
  | next {fuel position : Nat} {site : Site} {code : Instruction} {rest : List Instruction}
      {machine after : Machine}
      (ended : instruction program fuel site.base code machine = some (.ok .normal, after)) :
      Starts program ⟨fuel + 1, .sequence site position (code :: rest), machine⟩
        ⟨fuel, .sequence site (position + 1) rest, after⟩
  | labelledFirst {fuel position : Nat} {site : Site} {kind : BlockKind}
      {code : Instruction} {body rest : List Instruction} {machine : Machine} :
      Starts program ⟨fuel + 1, .labelled site kind body position (code :: rest), machine⟩
        ⟨fuel, .instruction site position code, machine⟩
  | labelledNext {fuel position : Nat} {site : Site} {kind : BlockKind}
      {code : Instruction} {body rest : List Instruction} {machine after : Machine}
      (ended : instruction program fuel site.base code machine = some (.ok .normal, after)) :
      Starts program ⟨fuel + 1, .labelled site kind body position (code :: rest), machine⟩
        ⟨fuel, .labelled site kind body (position + 1) rest, after⟩
  | restart {fuel position : Nat} {site : Site} {code : Instruction}
      {body rest : List Instruction} {machine after : Machine} {label : Label}
      (ended : instruction program fuel site.base code machine = some (.ok (.branch 0), after))
      (top : after.stack.topLabel? = some label) :
      Starts program ⟨fuel + 1, .labelled site .loop body position (code :: rest), machine⟩
        ⟨fuel, .labelled site .loop body label.resume (body.drop label.resume), after⟩
  | inside {fuel position : Nat} {site : Site} {kind : BlockKind} {label : Option String}
      {body : List Instruction} {span : Source.Span} {machine : Machine} :
      Starts program ⟨fuel + 1, .instruction site position (.structured kind label body span),
          machine⟩
        ⟨fuel, .labelled { site with path := site.path ++ [position] } kind body 0 body,
          { machine with stack := machine.stack.push (.label (.start kind)) }⟩
  | callee {fuel position index : Nat} {site : Site} {span : Source.Span} {machine : Machine} :
      Starts program ⟨fuel + 1, .instruction site position
          (.plain .call (some (.index index)) span), machine⟩
        ⟨fuel, .call index, machine⟩

/-- The moment in which a call from outside starts that is not rejected. -/
def invoked (fuel index : Nat) (arguments : List Int32) : Moment :=
  ⟨fuel, .call index, ⟨Stack.empty.pushValues arguments, 0⟩⟩

/-- Whether a run goes through a moment that another moment leads to. -/
abbrev Reaches (program : Program) : Moment → Moment → Prop :=
  Relation.ReflTransGen (Starts program)

/-- Two steps come to their end if the first one does, and the second one
does wherever the first one leads. -/
theorem isSome_bind {α β : Type} {step : Execution α} {next : α → Execution β}
    {machine : Machine} :
    ((step >>= next) machine).isSome ↔
      (step machine).isSome ∧
        ∀ value after, step machine = some (.ok value, after) → (next value after).isSome := by
  rw [bind_apply]
  rcases step machine with _ | ⟨error | value, after⟩ <;> simp

section Ends

variable (program : Program) (fuel : Nat) (machine : Machine)

theorem enter_isSome (index : Nat) : (enter program index machine).isSome := by
  rw [enter, isSome_bind]
  refine ⟨rfl, fun value after _ => ?_⟩
  split
  · rfl
  · simp only [isSome_bind, liftM_apply, onStack_apply, get_apply, pure_apply, Option.isSome_some,
      implies_true, and_self]

theorem call_isSome (index : Nat) :
    (call program (fuel + 1) index machine).isSome ↔
      ∀ function base after, enter program index machine = some (.ok (function, base), after) →
        (sequence program fuel base function.body
          { after with depth := after.depth + 1 }).isSome := by
  rw [call, isSome_bind]
  simp only [enter_isSome, true_and, Prod.forall, isSome_bind, asCall_apply, Option.isSome_map]
  refine forall₃_congr fun function base after => forall_congr' fun entered => ?_
  refine and_iff_left fun ending left ended => ?_
  cases ending <;> rfl

theorem sequence_isSome (base : Nat) (code : Instruction) (rest : List Instruction) :
    (sequence program (fuel + 1) base (code :: rest) machine).isSome ↔
      (instruction program fuel base code machine).isSome ∧
        ∀ after, instruction program fuel base code machine = some (.ok .normal, after) →
          (sequence program fuel base rest after).isSome := by
  rw [sequence_cons, isSome_bind]
  refine and_congr_right fun _ => ?_
  constructor
  · intro others after ended
    exact others _ _ ended
  · intro others ending after ended
    by_cases normal : ending = .normal
    · subst normal
      exact others after ended
    · simp [normal]

theorem labelled_isSome (base : Nat) (kind : BlockKind) (code : Instruction)
    (body rest : List Instruction) :
    (labelled program (fuel + 1) base kind body (code :: rest) machine).isSome ↔
      (instruction program fuel base code machine).isSome ∧
        (∀ after, instruction program fuel base code machine = some (.ok .normal, after) →
          (labelled program fuel base kind body rest after).isSome) ∧
        ∀ after label, kind = .loop →
          instruction program fuel base code machine = some (.ok (.branch 0), after) →
          after.stack.topLabel? = some label →
          (labelled program fuel base .loop body (body.drop label.resume) after).isSome := by
  rw [labelled_cons, isSome_bind]
  refine and_congr_right fun _ => ?_
  constructor
  · intro others
    refine ⟨fun after ended => others _ _ ended, ?_⟩
    rintro after label rfl ended top
    have again := others _ _ ended
    simpa [settle, top] using again
  · rintro ⟨others, again⟩ ending after ended
    match ending, kind with
    | .normal, _ => exact others after ended
    | .branch 0, .block => rfl
    | .branch 0, .loop =>
        cases top : after.stack.topLabel? with
        | none => simp [settle, top]
        | some label => simpa [settle, top] using again after label rfl ended top
    | .branch (depth + 1), _ => rfl
    | .returned, _ => rfl

theorem instruction_call_isSome (base index : Nat) (span : Source.Span) :
    (instruction program (fuel + 1) base (.plain .call (some (.index index)) span)
        machine).isSome ↔
      (call program fuel index machine).isSome := by
  rw [instruction_call, isSome_bind]
  exact and_iff_left fun _ _ _ => rfl

end Ends

/-- A task comes to its end exactly if there is fuel for it and every task
that it starts comes to its end. -/
theorem ends_iff (program : Program) (moment : Moment) :
    moment.Ends program ↔
      moment.fuel ≠ 0 ∧ ∀ next, Starts program moment next → next.Ends program := by
  obtain ⟨fuel, task, machine⟩ := moment
  cases fuel with
  | zero => cases task <;> simp [Ends, call, sequence, labelled, instruction]
  | succ fuel =>
      refine Iff.trans ?_ (and_iff_right (Nat.succ_ne_zero fuel)).symm
      cases task with
      | call index =>
          rw [Ends, call_isSome]
          constructor
          · rintro ended next ⟨entered⟩
            exact ended _ _ _ entered
          · intro ended function base after entered
            exact ended _ (.body entered)
      | sequence site position instructions =>
          cases instructions with
          | nil =>
              refine iff_of_true rfl ?_
              rintro next ⟨⟩
          | cons code rest =>
              rw [Ends, sequence_isSome]
              constructor
              · rintro ⟨ended, others⟩ next started
                cases started with
                | first => exact ended
                | next normal => exact others _ normal
              · intro ended
                exact ⟨ended _ .first, fun after normal => ended _ (.next normal)⟩
      | labelled site kind body position rest =>
          cases rest with
          | nil =>
              refine iff_of_true ?_ ?_
              · rw [Ends, labelled_nil, settle, isSome_bind]
                exact ⟨rfl, fun _ _ _ => rfl⟩
              · rintro next ⟨⟩
          | cons code rest =>
              rw [Ends, labelled_isSome]
              constructor
              · rintro ⟨ended, others, again⟩ next started
                cases started with
                | labelledFirst => exact ended
                | labelledNext normal => exact others _ normal
                | restart branched top => exact again _ _ rfl branched top
              · intro ended
                refine ⟨ended _ .labelledFirst, ?_, ?_⟩
                · intro after normal
                  exact ended _ (.labelledNext normal)
                · rintro after label rfl branched top
                  exact ended _ (.restart branched top)
      | instruction site position code =>
          cases code with
          | structured kind label body span =>
              constructor
              · rintro ended next ⟨⟩
                exact ended
              · intro ended
                have inner := ended _ .inside
                exact inner
          | plain opcode operand span =>
              constructor
              · rintro ended next ⟨⟩
                exact (instruction_call_isSome ..).mp ended
              · intro ended
                by_cases isCall : opcode = .call
                · subst isCall
                  rcases operand with _ | index | literal
                  · rfl
                  · exact (instruction_call_isSome ..).mpr (ended _ .callee)
                  · rfl
                · rw [Ends, instruction, if_neg isCall]
                  rfl

/-- A run that does not come to its end goes through a task that there is no
fuel for. -/
theorem ends_iff_forall_reaches (program : Program) (moment : Moment) :
    moment.Ends program ↔ ∀ next, Reaches program moment next → next.fuel ≠ 0 := by
  constructor
  · intro ended next reached
    have nextEnds : next.Ends program := by
      induction reached with
      | refl => exact ended
      | tail _ started ih => exact ((ends_iff program _).mp ih).2 _ started
    exact ((ends_iff program next).mp nextEnds).1
  · intro fuelled
    have spends : ∀ {moment next}, Starts program moment next → moment.fuel = next.fuel + 1 := by
      rintro _ _ (_ | _) <;> rfl
    induction enough : moment.fuel generalizing moment with
    | zero => exact absurd enough (fuelled moment .refl)
    | succ fuel ih =>
        refine (ends_iff program moment).mpr ⟨fuelled moment .refl, ?_⟩
        intro next started
        have spent := spends started
        exact ih next (fun last reached => fuelled last (.head started reached)) (by omega)

end Moment

end Execution

end WatMachine
