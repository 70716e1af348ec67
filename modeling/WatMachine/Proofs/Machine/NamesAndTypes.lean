import WatMachine.Proofs.Machine.Resemblance

/-!
# Names and types do not matter to execution

What a program does depends on the opcodes, operands and nesting of its
instructions, on the numbers of variables, arguments and results of its
functions and the values of their variables, on indices, and on the names of
exports and of what imported functions stand for.  Everything else that a
module keeps is for people to read: names of variables and labels, value
types, places, type definitions, imports other than functions, and what the
module and its definitions are called.  Modules that differ in these only are
executed alike.
-/

namespace WatMachine

/-- Whether two instructions are the same but for their places and the names of
their labels. -/
inductive Instruction.Resembles : Instruction → Instruction → Prop where
  | plain {opcode : Keyword} {operand : Option Operand} {span place : Source.Span} :
      Resembles (.plain opcode operand span) (.plain opcode operand place)
  | structured {kind : BlockKind} {label name : Option String} {body code : List Instruction}
      {span place : Source.Span} (bodies : List.Forall₂ Resembles body code) :
      Resembles (.structured kind label body span) (.structured kind name code place)

structure FunctionDefinition.Resembles (function other : FunctionDefinition) : Prop where
  index : function.index = other.index
  frame : function.frame.Resembles other.frame
  body : List.Forall₂ Instruction.Resembles function.body other.body

/-- Whether two fields of modules do the same at run time. -/
inductive Field.Resembles : Field → Field → Prop where
  | function {definition other : FunctionDefinition} (functions : definition.Resembles other) :
      Resembles (.function definition) (.function other)
  | imported {source name : String} {index typeIndex otherType : Nat} {frame other : Frame}
      (frames : frame.Resembles other) :
      Resembles (.imported ⟨source, name, .function index typeIndex frame⟩)
        (.imported ⟨source, name, .function index otherType other⟩)
  | exported (declaration : Export) : Resembles (.exported declaration) (.exported declaration)

/-- Whether a field has a part in execution.  Types and imports other than
functions have none. -/
def Field.takesPart : Field → Bool
  | .function _ | .exported _ => true
  | .imported declaration => declaration.callee?.isSome
  | .type _ => false

/-- Whether two modules are the same, field by field, but for names, types and
places, and for fields that have no part in execution. -/
def Module.Resembles (module other : Module) : Prop :=
  List.Forall₂ Field.Resembles (module.fields.filter Field.takesPart)
    (other.fields.filter Field.takesPart)

inductive Callee.Resembles : Callee → Callee → Prop where
  | defined {function other : FunctionDefinition} (functions : function.Resembles other) :
      Resembles (.defined function) (.defined other)
  | imported {declaration other : Import} {frame copy : Frame}
      (source : declaration.source = other.source) (name : declaration.name = other.name)
      (frames : frame.Resembles copy) :
      Resembles (.imported declaration frame) (.imported other copy)

/-- Whether two programs do the same for every call. -/
structure Program.Resembles (program other : Program) : Prop where
  maxCallDepth : program.maxCallDepth = other.maxCallDepth
  functions : List.Forall₂ (fun entry copy => entry.1 = copy.1 ∧ entry.2.Resembles copy.2)
    program.functions other.functions
  exports : program.exports = other.exports

theorem Callee.Resembles.frame {callee other : Callee} (resembles : callee.Resembles other) :
    callee.frame.Resembles other.frame := by
  cases resembles with
  | defined functions => exact functions.frame
  | imported _ _ frames => exact frames

namespace Module.Resembles

variable {module other : Module} (resembles : module.Resembles other)

include resembles

/-- What is picked from the fields of both modules is related, if it is so for
every two fields that resemble each other. -/
theorem filterMap {α : Type} {related : α → α → Prop} {pick : Field → Option α}
    (picks : ∀ ⦃field copy : Field⦄, field.Resembles copy →
      Option.Rel related (pick field) (pick copy))
    (idle : ∀ field : Field, field.takesPart = false → pick field = none) :
    List.Forall₂ related (module.fields.filterMap pick) (other.fields.filterMap pick) := by
  have busy (fields : List Field) :
      (fields.filter Field.takesPart).filterMap pick = fields.filterMap pick := by
    rw [List.filterMap_filter]
    congr
    funext field
    cases part : field.takesPart with
    | true => rfl
    | false => exact (idle field part).symm
  rw [← busy module.fields, ← busy other.fields]
  exact List.rel_filterMap picks resembles

theorem functions :
    List.Forall₂ FunctionDefinition.Resembles module.functions other.functions := by
  apply resembles.filterMap
  · rintro _ _ (functions | frames | declaration)
    · exact .some functions
    · exact .none
    · exact .none
  · rintro (_ | _ | _ | _) part
    · cases part
    · rfl
    · rfl
    · rfl

theorem exports : module.exports = other.exports := by
  rw [← List.forall₂_eq_eq_eq]
  apply resembles.filterMap
  · rintro _ _ (functions | frames | declaration)
    · exact .none
    · exact .none
    · exact .some rfl
  · rintro (_ | _ | _ | _) part
    · rfl
    · rfl
    · cases part
    · rfl

theorem callees :
    List.Forall₂ (fun entry copy => entry.1 = copy.1 ∧ entry.2.Resembles copy.2)
      (module.imports.filterMap Import.callee?) (other.imports.filterMap Import.callee?) := by
  simp only [Module.imports, List.filterMap_filterMap]
  apply resembles.filterMap
  · rintro _ _ (functions | frames | declaration)
    · exact .none
    · exact .some ⟨rfl, .imported rfl rfl frames⟩
    · exact .none
  · rintro (_ | declaration | _ | _) part
    · rfl
    · exact Option.not_isSome_iff_eq_none.mp (Bool.eq_false_iff.mp part)
    · rfl
    · rfl

end Module.Resembles

namespace Program

/-- Programs of such modules do the same. -/
theorem ofModule_resembles {module other : Module} (resembles : module.Resembles other)
    (limit : Nat) : (ofModule module limit).Resembles (ofModule other limit) := by
  refine ⟨rfl, ?_, resembles.exports⟩
  apply List.rel_reverse
  refine List.rel_append ?_ resembles.callees
  rw [List.forall₂_map_left_iff, List.forall₂_map_right_iff]
  exact resembles.functions.imp fun function copy same => ⟨same.index, .defined same⟩

namespace Resembles

variable {program other : Program} (resembles : program.Resembles other)

include resembles

theorem callee (index : Nat) :
    Outcomes Callee.Resembles (program.callee index) (other.callee index) := by
  have found {entries copies : List (Nat × Callee)}
      (entered : List.Forall₂ (fun entry copy => entry.1 = copy.1 ∧ entry.2.Resembles copy.2)
        entries copies) :
      Option.Rel Callee.Resembles (entries.lookup index) (copies.lookup index) := by
    induction entered with
    | nil => exact .none
    | @cons entry copy _ _ first _ ih =>
        obtain ⟨place, callee⟩ := entry
        obtain ⟨_, another⟩ := copy
        obtain ⟨rfl, callees⟩ := first
        rw [List.lookup_cons, List.lookup_cons]
        cases index == place with
        | true => exact .some callees
        | false => exact ih
  have lookedUp := found resembles.functions
  unfold Program.callee callee?
  generalize program.functions.lookup index = one, other.functions.lookup index = two at lookedUp
  cases lookedUp with
  | none => exact .errors _
  | some callees => exact .values callees

theorem definition (index : Nat) :
    Outcomes FunctionDefinition.Resembles (program.definition index)
      (other.definition index) := by
  have found := resembles.callee index
  unfold Program.definition
  generalize program.callee index = one, other.callee index = two at found
  cases found with
  | errors error => exact .errors error
  | values callees =>
      cases callees with
      | defined functions => exact .values functions
      | @imported declaration other _ _ source name _ =>
          change Outcomes _ (.error (.unlinkedImport declaration.source declaration.name))
            (.error (.unlinkedImport other.source other.name))
          rw [source, name]
          exact .errors _

theorem export? (name : String) : program.export? name = other.export? name := by
  rw [Program.export?, Program.export?, resembles.exports]

end Resembles

end Program

structure Machine.Resembles (machine other : Machine) : Prop where
  stack : machine.stack.Resembles other.stack
  depth : machine.depth = other.depth

namespace Execution

variable {α β γ δ : Type} {related : α → β → Prop} {resembling : γ → δ → Prop}

/-- Whether two steps end together in states that resemble each other, with
related values or the same error. -/
def Agree (related : α → β → Prop) (step : Execution α) (other : Execution β) : Prop :=
  ∀ machine copy : Machine, machine.Resembles copy →
    Option.Rel (fun one two => Outcomes related one.1 two.1 ∧ one.2.Resembles two.2)
      (step machine) (other copy)

namespace Agree

theorem pure {value : α} {other : β} (same : related value other) :
    Agree related (pure value) (pure other) :=
  fun _ _ resembles => .some ⟨.values same, resembles⟩

theorem throw (error : RuntimeError) :
    Agree related (throw error : Execution α) (throw error : Execution β) :=
  fun _ _ resembles => .some ⟨.errors error, resembles⟩

theorem outOfFuel : Agree related outOfFuel outOfFuel :=
  fun _ _ _ => .none

theorem get : Agree Machine.Resembles get get :=
  fun _ _ resembles => .some ⟨.values resembles, resembles⟩

theorem lift {result : Except RuntimeError α} {other : Except RuntimeError β}
    (outcomes : Outcomes related result other) :
    Agree related (liftM result : Execution α) (liftM other : Execution β) :=
  fun _ _ resembles => .some ⟨outcomes, resembles⟩

theorem onStack {action : StackAction α} {other : StackAction β}
    (agree : StackAction.Agree related action other) :
    Agree related (onStack action) (onStack other) := by
  intro machine copy resembles
  obtain ⟨outcomes, left⟩ := agree _ _ resembles.stack
  exact .some ⟨outcomes, left, resembles.depth⟩

theorem bind {step : Execution α} {other : Execution β} {next : α → Execution γ}
    {after : β → Execution δ} (first : Agree related step other)
    (rest : ∀ value copy, related value copy → Agree resembling (next value) (after copy)) :
    Agree resembling (step >>= next) (other >>= after) := by
  intro machine copy resembles
  have begun := first machine copy resembles
  rw [bind_apply, bind_apply]
  generalize step machine = one, other copy = two at begun
  cases begun with
  | none => exact .none
  | @some one two ended =>
      obtain ⟨result, left⟩ := one
      obtain ⟨also, right⟩ := two
      obtain ⟨outcomes, resembles⟩ := ended
      cases outcomes with
      | values same => exact rest _ _ same left right resembles
      | errors error => exact .some ⟨.errors error, resembles⟩

/-- Where the first steps give the same value, the next ones are compared for
one value only. -/
theorem andThen {step other : Execution α} {next : α → Execution γ} {after : α → Execution δ}
    (first : Agree Eq step other) (rest : ∀ value, Agree resembling (next value) (after value)) :
    Agree resembling (step >>= next) (other >>= after) := by
  refine first.bind ?_
  rintro value _ rfl
  exact rest value

theorem asCall {step : Execution α} {other : Execution β} (agree : Agree related step other) :
    Agree related (asCall step) (asCall other) := by
  intro machine copy resembles
  have ended := agree { machine with depth := machine.depth + 1 }
    { copy with depth := copy.depth + 1 } ⟨resembles.stack, congrArg (· + 1) resembles.depth⟩
  rw [asCall_apply, asCall_apply]
  generalize step _ = one, other _ = two at ended
  cases ended with
  | none => exact .none
  | some ended =>
      obtain ⟨outcomes, left⟩ := ended
      exact .some ⟨outcomes, left.stack, congrArg (· - 1) left.depth⟩

end Agree

theorem leave_agree (base resultCount : Nat) :
    StackAction.Agree Eq (leave base resultCount) (leave base resultCount) :=
  (StackAction.popValues_agree _).andThen fun results =>
    (StackAction.truncate_agree base).andThen fun _ =>
      StackAction.popActivation_agree.bind fun _ _ _ => StackAction.pushValues_agree results

theorem closeBlock_agree : StackAction.Agree Eq closeBlock closeBlock :=
  StackAction.drainScope_agree.andThen fun results =>
    StackAction.popLabel_agree.andThen fun _ => StackAction.pushValues_agree results

section Programs

variable {program other : Program}

theorem enter_agree (resembles : program.Resembles other) (index : Nat) :
    Agree (fun one two => one.1.Resembles two.1 ∧ one.2 = two.2)
      (enter program index) (enter other index) := by
  refine Agree.get.bind fun machine copy machines => ?_
  rw [machines.depth, resembles.maxCallDepth]
  split
  · exact .throw _
  · refine (Agree.lift (resembles.definition index)).bind fun function copy functions => ?_
    rw [functions.frame.argumentCount]
    refine (Agree.onStack (StackAction.popValues_agree _)).andThen fun arguments => ?_
    refine Agree.get.bind fun machine copy machines => ?_
    rw [machines.stack.size]
    have pushed := StackAction.push_agree (.activation (functions.frame.withArguments arguments))
    exact (Agree.onStack pushed).andThen fun _ => .pure ⟨functions, rfl⟩

/-- Execution with some fuel does the same for both programs. -/
structure AgreeWith (program other : Program) (fuel : Nat) : Prop where
  call : ∀ index, Agree Eq (call program fuel index) (call other fuel index)
  sequence : ∀ base {code copy}, List.Forall₂ Instruction.Resembles code copy →
    Agree Eq (sequence program fuel base code) (sequence other fuel base copy)
  labelled : ∀ base kind {body code rest left}, List.Forall₂ Instruction.Resembles body code →
    List.Forall₂ Instruction.Resembles rest left →
    Agree Eq (labelled program fuel base kind body rest) (labelled other fuel base kind code left)
  instruction : ∀ base {first copy}, first.Resembles copy →
    Agree Eq (instruction program fuel base first) (instruction other fuel base copy)

theorem settle_agree {fuel base : Nat} {kind : BlockKind} {body code : List Instruction}
    (bodies : List.Forall₂ Instruction.Resembles body code)
    (again : ∀ {rest left}, List.Forall₂ Instruction.Resembles rest left →
      Agree Eq (labelled program fuel base kind body rest)
        (labelled other fuel base kind code left)) (ending : Ending) :
    Agree Eq (settle program fuel base kind body ending)
      (settle other fuel base kind code ending) := by
  match ending, kind with
  | .normal, _ => exact (Agree.onStack closeBlock_agree).andThen fun _ => .pure rfl
  | .branch 0, .block => exact .pure rfl
  | .branch 0, .loop =>
      refine Agree.get.bind fun machine copy machines => ?_
      rw [machines.stack.topLabel?]
      cases copy.stack.topLabel? with
      | none => exact .throw _
      | some label => exact again (List.forall₂_drop _ bodies)
  | .branch (depth + 1), _ => exact .pure rfl
  | .returned, _ => exact .pure rfl

theorem call_agree_succ {fuel : Nat} (resembles : program.Resembles other)
    (agreed : AgreeWith program other fuel) (index : Nat) :
    Agree Eq (call program (fuel + 1) index) (call other (fuel + 1) index) := by
  rw [call, call]
  refine (enter_agree resembles index).bind ?_
  rintro ⟨function, base⟩ ⟨copy, _⟩ ⟨functions, rfl⟩
  refine (agreed.sequence base functions.body).asCall.andThen fun ending => ?_
  have left : Agree Eq (onStack (leave base function.frame.resultCount))
      (onStack (leave base copy.frame.resultCount)) := by
    rw [functions.frame.resultCount]
    exact .onStack (leave_agree _ _)
  cases ending with
  | branch depth => exact .throw _
  | normal => exact left
  | returned => exact left

theorem instruction_agree_succ {fuel : Nat} (agreed : AgreeWith program other fuel) (base : Nat)
    {first copy : Instruction} (same : first.Resembles copy) :
    Agree Eq (instruction program (fuel + 1) base first)
      (instruction other (fuel + 1) base copy) := by
  cases same with
  | structured bodies =>
      rw [instruction, instruction]
      exact (Agree.onStack (StackAction.push_agree (.label _))).andThen fun _ =>
        agreed.labelled base _ bodies bodies
  | @plain opcode operand =>
      rw [instruction, instruction]
      split
      · exact (Agree.onStack (Operation.indexOperand_agree _ _)).andThen fun index =>
          (agreed.call index).andThen fun _ => .pure rfl
      · exact .onStack (Operation.perform_agree _ _ _)

theorem agreeWith (resembles : program.Resembles other) (fuel : Nat) :
    AgreeWith program other fuel := by
  induction fuel with
  | zero => exact ⟨fun _ => .outOfFuel, fun _ _ _ _ => .outOfFuel, fun _ _ _ _ _ _ _ _ =>
      .outOfFuel, fun _ _ _ _ => .outOfFuel⟩
  | succ fuel ih =>
      refine ⟨call_agree_succ resembles ih, ?_, ?_, instruction_agree_succ ih⟩
      · intro base code copy same
        cases same with
        | nil => exact .pure rfl
        | cons first rest =>
            rw [sequence_cons, sequence_cons]
            refine (ih.instruction base first).andThen fun ending => ?_
            split
            · exact ih.sequence base rest
            · exact .pure rfl
      · intro base kind body code rest left bodies same
        have settled := settle_agree bodies (ih.labelled base kind bodies)
        cases same with
        | nil =>
            rw [labelled_nil, labelled_nil]
            exact settled .normal
        | cons first rest =>
            rw [labelled_cons, labelled_cons]
            refine (ih.instruction base first).andThen fun ending => ?_
            split
            · exact ih.labelled base kind bodies rest
            · exact settled ending

end Programs

end Execution

/-- A call from outside: of a function by its index, of an export, or of an
export that need not exist. -/
inductive Request where
  | function (index : Nat) (arguments : List Int32)
  | exported (name : String) (arguments : List Int32)
  | ifExported (name : String) (arguments : List Int32)
  deriving Repr, DecidableEq

namespace Program

open Execution

def answer (program : Program) (fuel : Nat) : Request → Execution (List Int32)
  | .function index arguments => program.invoke fuel index arguments
  | .exported name arguments => program.invokeExport fuel name arguments
  | .ifExported name arguments => program.callExtern fuel name arguments

/-- The outcomes of calls that are made one after the other, each in the state
that the one before it leaves.  Gives `none` if fuel runs out in one of them. -/
def session (program : Program) (fuel : Nat) :
    List Request → Machine → Option (List (Except RuntimeError (List Int32)))
  | [], _ => some []
  | request :: requests, machine =>
      match program.answer fuel request machine with
      | none => none
      | some (outcome, after) => (program.session fuel requests after).map (outcome :: ·)

theorem collect_congr {step other : Execution Unit} (agree : Agree Eq step other)
    {machine copy : Machine} (resembles : machine.Resembles copy) :
    collect step machine = collect other copy := by
  have ended := agree machine copy resembles
  rw [collect_apply, collect_apply]
  generalize step machine = one, other copy = two at ended
  cases ended with
  | none => rfl
  | some ended =>
      obtain ⟨outcomes, left⟩ := ended
      simp only [Option.map_some, outcomes.eq, left.stack.values, left.depth]

section Calls

variable {program other : Program} (resembles : program.Resembles other) (fuel : Nat)

include resembles

theorem invoke_congr (index : Nat) (arguments : List Int32) :
    program.invoke fuel index arguments = other.invoke fuel index arguments := by
  have found := resembles.callee index
  unfold invoke
  generalize program.callee index = one, other.callee index = two at found
  funext machine
  cases found with
  | errors error => simp only [bind_apply, liftM_apply]
  | @values callee copy callees =>
      simp only [bind_apply, liftM_apply, callees.frame.argumentCount]
      split
      · have idle : Stack.empty.Resembles .empty := .nil
        simp only [bind_apply, set_apply]
        exact collect_congr ((agreeWith resembles fuel).call index) ⟨idle.pushValues arguments, rfl⟩
      · rfl

theorem invokeExport_congr (name : String) (arguments : List Int32) :
    program.invokeExport fuel name arguments = other.invokeExport fuel name arguments := by
  simp only [invokeExport, resembles.export?, invoke_congr resembles]

theorem answer_congr (request : Request) :
    program.answer fuel request = other.answer fuel request := by
  cases request with
  | function index arguments => exact invoke_congr resembles fuel index arguments
  | exported name arguments => exact invokeExport_congr resembles fuel name arguments
  | ifExported name arguments =>
      rw [answer, answer, callExtern, callExtern, invokeExport_congr resembles]

theorem session_eq_of_resembles (requests : List Request) (machine : Machine) :
    program.session fuel requests machine = other.session fuel requests machine := by
  induction requests generalizing machine with
  | nil => rfl
  | cons request requests ih =>
      rw [session, session, answer_congr resembles]
      split
      · rfl
      · rw [ih]

end Calls

/-- Names, types and places have no effect at run time.  For modules that differ
in them only, or in fields that have no part in execution, a call from outside
ends in the same outcome and leaves the same state, or neither of the two ends
with the fuel that it is given; and so it is with every session of calls. -/
theorem runs_alike {module other : Module} (resembles : module.Resembles other)
    (maxCallDepth : Nat) :
    (∀ fuel request, (ofModule module maxCallDepth).answer fuel request =
      (ofModule other maxCallDepth).answer fuel request) ∧
    ∀ fuel requests machine, (ofModule module maxCallDepth).session fuel requests machine =
      (ofModule other maxCallDepth).session fuel requests machine := by
  have programs := ofModule_resembles resembles maxCallDepth
  constructor
  · intro fuel request
    exact answer_congr programs fuel request
  · intro fuel requests machine
    exact session_eq_of_resembles programs fuel requests machine

/-- A function that counts its argument down in a loop, and an imported one. -/
def countdown : Module where
  id := some "countdown"
  fields :=
    [.type ⟨0, ⟨[.i32], [.i32]⟩⟩,
      .imported ⟨"env", "memory", .memory 0 ⟨1, some 2⟩⟩,
      .imported ⟨"env", "log", .function 0 0 (.ofParams [⟨.i32, some "line", 0⟩] [])⟩,
      .function ⟨1, 0, .ofParams [⟨.i32, some "count", 0⟩] [.i32],
        [.structured .loop (some "again")
            [.plain .localGet (some (.index 0)) ⟨9, 18, 2, 3⟩,
              .plain .i32Const (some (.literal 1)) ⟨22, 31, 2, 13⟩,
              .plain .i32Sub none ⟨34, 41, 2, 25⟩,
              .plain .localTee (some (.index 0)) ⟨42, 51, 3, 3⟩,
              .plain .brIf (some (.index 0)) ⟨54, 59, 3, 13⟩] ⟨3, 7, 1, 4⟩,
          .plain .localGet (some (.index 0)) ⟨60, 69, 4, 1⟩]⟩,
      .exported ⟨"run", .function, 1⟩]
  environment := ⟨⟨[none], [some "log", some "run"], [], [some "memory"], [], [], []⟩⟩

/-- The same functions with other types and without names and places. -/
def namelessCountdown : Module where
  id := none
  fields :=
    [.imported ⟨"env", "log", .function 0 5 (.ofParams [.anonymous .f64] [])⟩,
      .function ⟨1, 6, .ofParams [.anonymous .i64] [.f32],
        [.structured .loop none
            [.plain .localGet (some (.index 0)) .origin,
              .plain .i32Const (some (.literal 1)) .origin,
              .plain .i32Sub none .origin,
              .plain .localTee (some (.index 0)) .origin,
              .plain .brIf (some (.index 0)) .origin] .origin,
          .plain .localGet (some (.index 0)) .origin]⟩,
      .exported ⟨"run", .function, 1⟩,
      .imported ⟨"env", "table", .table 0⟩]
  environment := .empty

theorem runs_alike_countdown :
    countdown.Resembles namelessCountdown ∧
      (ofModule namelessCountdown 5).session 16
          [.exported "run" [2], .function 0 [7], .ifExported "stop" []] .idle =
        some [.ok [0], .error (.unlinkedImport "env" "log"), .ok []] := by
  have resembles : countdown.Resembles namelessCountdown := by
    have body : List.Forall₂ Instruction.Resembles
        [.plain .localGet (some (.index 0)) ⟨9, 18, 2, 3⟩,
          .plain .i32Const (some (.literal 1)) ⟨22, 31, 2, 13⟩,
          .plain .i32Sub none ⟨34, 41, 2, 25⟩,
          .plain .localTee (some (.index 0)) ⟨42, 51, 3, 3⟩,
          .plain .brIf (some (.index 0)) ⟨54, 59, 3, 13⟩]
        [.plain .localGet (some (.index 0)) .origin,
          .plain .i32Const (some (.literal 1)) .origin,
          .plain .i32Sub none .origin,
          .plain .localTee (some (.index 0)) .origin,
          .plain .brIf (some (.index 0)) .origin] := by
      repeat constructor
    exact .cons (.imported ⟨rfl, rfl, rfl⟩) (.cons (.function ⟨rfl, ⟨rfl, rfl, rfl⟩,
      .cons (.structured body) (.cons .plain .nil)⟩) (.cons (.exported _) .nil))
  refine ⟨resembles, ?_⟩
  rw [← (runs_alike resembles 5).2]
  decide +kernel

end Program

end WatMachine
