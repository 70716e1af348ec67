import WatMachine.Proofs.Grammar.Indices
import WatMachine.Proofs.Machine.Complaints
import WatMachine.Proofs.Machine.Isolation
import WatMachine.Proofs.Machine.Termination

/-!
# The instructions of accepted sources

Reading and execution have tables of instructions of their own.  They agree:
whatever plain instruction an accepted source gives has the operand that its
execution takes, and all but six of those that can be written are executed.
So no call of such a module complains about an operand, and the only other
complaints are about these six.
-/

namespace WatMachine

theorem BlockKind.ofKeyword?_eq_none {word : Keyword} :
    ofKeyword? word = none ↔ word ≠ .block ∧ word ≠ .loop := by
  cases word <;> simp [ofKeyword?]

namespace Keyword

/-- The plain instructions that can be written but are not executed. -/
def unexecuted : List Keyword :=
  [globalGet, globalSet, callIndirect, i64Const, f32Const, f64Const]

theorem mem_unexecuted {opcode : Keyword} (written : opcode.isInstruction = true)
    (plain : opcode ≠ .block ∧ opcode ≠ .loop) (skipped : opcode.isExecuted = false) :
    opcode ∈ unexecuted := by
  revert written plain skipped
  cases opcode <;> decide

end Keyword

/-- What holds of every plain instruction of an accepted source. -/
structure WellWritten (opcode : Keyword) (operand : Option Operand) : Prop where
  isInstruction : opcode.isInstruction = true
  plain : opcode ≠ .block ∧ opcode ≠ .loop
  index : opcode ∈ [.call, .localGet, .localSet, .localTee, .br, .brIf, .globalGet, .globalSet] →
    ∃ value, operand = some (.index value)
  literal : opcode ∈ [.i32Const, .i64Const, .f32Const, .f64Const] →
    ∃ value, operand = some (.literal value)
  /-- A literal of 32 bits is in their range, so cutting it to them leaves it
  as it is. -/
  word : ∀ value, opcode = .i32Const → operand = some (.literal value) →
    -0x80000000 ≤ value ∧ value < 0x80000000 ∧ (Int32.ofInt value).toInt = value

namespace Immediate

variable {scope : Scope} {opcode : Keyword} {tokens : List Token} {operand : Option Operand}

theorem isIndex (immediate : Immediate scope opcode tokens operand)
    (taken : opcode ∈ [.call, .localGet, .localSet, .localTee, .br, .brIf, .globalGet,
      .globalSet]) : ∃ value, operand = some (.index value) := by
  cases immediate with
  | call | localVariable | global | label => exact ⟨_, rfl⟩
  | indirect | word => simp at taken
  | literal listed | nothing listed => cases opcode <;> simp at listed taken

theorem isLiteral (immediate : Immediate scope opcode tokens operand)
    (taken : opcode ∈ [.i32Const, .i64Const, .f32Const, .f64Const]) :
    ∃ value, operand = some (.literal value) := by
  cases immediate with
  | word | literal => exact ⟨_, rfl⟩
  | call | indirect => simp at taken
  | localVariable listed | global listed | label listed | nothing listed =>
      cases opcode <;> simp at listed taken

/-- A literal of 32 bits is kept as the signed number that its bits stand
for. -/
theorem exists_word (immediate : Immediate scope .i32Const tokens operand) :
    ∃ number : Int32, operand = some (.literal number.toInt) := by
  cases immediate with
  | word => exact ⟨_, rfl⟩
  | localVariable listed | global listed | label listed | literal listed | nothing listed =>
      simp at listed

theorem wellWritten (immediate : Immediate scope opcode tokens operand) :
    WellWritten opcode operand := by
  obtain ⟨isInstruction, plain⟩ := Reader.isInstruction_of_immediate scope immediate
  refine ⟨isInstruction, BlockKind.ofKeyword?_eq_none.mp plain, immediate.isIndex,
    immediate.isLiteral, ?_⟩
  rintro value rfl rfl
  obtain ⟨number, same⟩ := immediate.exists_word
  cases same
  exact ⟨number.minValue_le_toInt, number.toInt_lt, congrArg Int32.toInt number.ofInt_toInt⟩

end Immediate

namespace WellWritten

variable {opcode : Keyword} {operand : Option Operand}

/-- The only complaints about a well-written instruction are that it is one of
those that are not executed. -/
theorem complaint (written : WellWritten opcode operand) {error : RuntimeError}
    (complains : Complaint opcode operand error) :
    error = .unimplementedInstruction opcode ∧ opcode ∈ Keyword.unexecuted := by
  cases complains with
  | index takes lacks =>
      have taken : opcode ∈ [.call, .localGet, .localSet, .localTee, .br, .brIf, .globalGet,
          .globalSet] := by
        cases opcode <;> cases takes <;> decide
      obtain ⟨value, isIndex⟩ := written.index taken
      exact absurd isIndex (lacks value)
  | literal constant lacks =>
      obtain ⟨value, isLiteral⟩ := written.literal (by simp [constant])
      exact absurd isLiteral (lacks value)
  | unimplemented skipped =>
      exact ⟨rfl, Keyword.mem_unexecuted written.isInstruction written.plain skipped⟩

end WellWritten

namespace Module

theorem Indexed.bodyRead {module : Module} {declarations : Declarations}
    {groups : List (List Token)} {parts : List (List Field)}
    (indexed : module.Indexed declarations groups parts) {function : FunctionDefinition}
    (defined : function ∈ module.functions) :
    ∃ tokens, BodyRead declarations tokens function := by
  obtain ⟨field, listed, isFunction⟩ := List.mem_filterMap.mp defined
  have isField : field = .function function := by
    cases field <;> cases isFunction
    rfl
  subst isField
  rw [indexed.fields] at listed
  obtain ⟨part, isPart, inside⟩ := List.mem_flatten.mp listed
  obtain ⟨position, here⟩ := List.mem_iff_getElem?.mp isPart
  have below : position < groups.length := by
    rw [← indexed.length_parts]
    exact (List.getElem?_eq_some_iff.mp here).1
  have read := indexed.each position _ part (List.getElem?_eq_getElem below) here
  exact ⟨_, read.bodies function inside⟩

/-- Every plain instruction of an accepted source is well-written. -/
theorem wellWritten_of_parse {source : String} {module : Module}
    (accepted : parse source = .ok module) {function : FunctionDefinition}
    (defined : function ∈ module.functions) {opcode : Keyword} {operand : Option Operand}
    {span : Source.Span} (occurs : Occurs (.plain opcode operand span) function.body) :
    WellWritten opcode operand := by
  obtain ⟨tokens, -, given⟩ := parse_eq_ok.mp accepted
  obtain ⟨declarations, rest, run⟩ := ofStream_eq_ok_iff_run.mp given
  obtain ⟨_, _, _, _, groups, parts, -, -, -, -, -, -, indexed⟩ := Builder.module_read run
  obtain ⟨written, environment, body, -, -, derived⟩ := indexed.bodyRead defined
  obtain ⟨scope, word, immediate, -, -, -, -, isImmediate⟩ := derived.plainRead occurs
  exact isImmediate.wellWritten

end Module

namespace Program

variable {errors : RuntimeError → Prop} {program : Program} {fuel : Nat}
  {machine after : Machine} {outcome : Except RuntimeError (List Int32)}

theorem invokeExport_failsOnlyWith (admits : program.Admits errors) {name : String}
    {arguments : List Int32}
    (ended : program.invokeExport fuel name arguments machine = some (outcome, after)) :
    FailsOnlyWith errors outcome := by
  rw [invokeExport_apply] at ended
  split at ended
  · exact invoke_failsOnlyWith admits ended
  · cases ended
    exact .error (admits.situational _ rfl)
  · cases ended
    exact .error (admits.situational _ rfl)

theorem answer_failsOnlyWith (admits : program.Admits errors) {request : Request}
    (ended : program.answer fuel request machine = some (outcome, after)) :
    FailsOnlyWith errors outcome := by
  cases request with
  | function index arguments => exact invoke_failsOnlyWith admits ended
  | exported name arguments => exact invokeExport_failsOnlyWith admits ended
  | ifExported name arguments =>
      rw [answer, callExtern_apply] at ended
      split at ended
      · cases ended
        exact .ok _
      · exact invokeExport_failsOnlyWith admits ended

/-- No call of a session ends with an error that is not admitted. -/
theorem Serves.failsOnlyWith (admits : program.Admits errors) {exchanges : List Exchange}
    (served : Serves program machine exchanges) :
    ∀ exchange ∈ exchanges, FailsOnlyWith errors exchange.outcome := by
  induction served with
  | nil => simp
  | cons answered rest ih =>
      exact List.forall_mem_cons.mpr ⟨answer_failsOnlyWith admits answered, ih⟩

end Program

namespace Module

/-- The errors that a call of an accepted source can end with: none about an
operand, and none about an instruction but the six that are not executed. -/
def Expected (error : RuntimeError) : Prop :=
  (∀ opcode, error ≠ .missingOperand opcode) ∧
    ∀ opcode, error = .unimplementedInstruction opcode → opcode ∈ Keyword.unexecuted

theorem admits_expected {source : String} {module : Module}
    (accepted : parse source = .ok module) (maxCallDepth : Nat) :
    (Program.ofModule module maxCallDepth).Admits Expected where
  situational error situational := by
    constructor
    · rintro opcode rfl
      cases situational
    · rintro opcode rfl
      cases situational
  bodies index function defined opcode operand span error occurs complains := by
    have listed := Program.mem_functions_of_definition defined
    have written := wellWritten_of_parse accepted listed occurs
    obtain ⟨rfl, unexecuted⟩ := written.complaint complains
    refine ⟨nofun, ?_⟩
    rintro _ ⟨⟩
    exact unexecuted

/-- Reading and execution agree on the instructions and their operands.  All
plain instructions of an accepted source are well-written, at whatever depth.
However its module is called, no call ends for a missing operand, and none for
an instruction that is not executed unless it is one of six. -/
theorem parse_agrees {source : String} {module : Module}
    (accepted : parse source = .ok module) :
    (∀ function ∈ module.functions, ∀ opcode operand span,
      Occurs (.plain opcode operand span) function.body → WellWritten opcode operand) ∧
    ∀ maxCallDepth machine exchanges,
      (Program.ofModule module maxCallDepth).Serves machine exchanges →
      ∀ exchange ∈ exchanges,
        (∀ opcode, exchange.outcome ≠ .error (.missingOperand opcode)) ∧
        ∀ opcode, exchange.outcome = .error (.unimplementedInstruction opcode) →
          opcode ∈ [.globalGet, .globalSet, .callIndirect, .i64Const, .f32Const, .f64Const] := by
  constructor
  · intro function defined opcode operand span occurs
    exact wellWritten_of_parse accepted defined occurs
  · intro maxCallDepth machine exchanges served exchange member
    have fails : FailsOnlyWith Expected exchange.outcome :=
      served.failsOnlyWith (admits_expected accepted maxCallDepth) exchange member
    constructor
    · intro opcode failed
      exact (fails _ failed).1 opcode rfl
    · intro opcode failed
      exact (fails _ failed).2 opcode rfl

/-- A function whose constant stands for a negative number, and which then
asks for a global inside its block. -/
def globalInBlock : String :=
  "(module (func block i32.const 4294967295 global.get 0 end))"

def globalInBlockTokens : List Token :=
  [⟨.leftParen, "(", ⟨0, 1, 1, 1⟩⟩, ⟨.keyword .moduleForm, "module", ⟨1, 7, 1, 2⟩⟩,
    ⟨.leftParen, "(", ⟨8, 9, 1, 9⟩⟩, ⟨.keyword .funcForm, "func", ⟨9, 13, 1, 10⟩⟩,
    ⟨.keyword .block, "block", ⟨14, 19, 1, 15⟩⟩, ⟨.keyword .i32Const, "i32.const", ⟨20, 29, 1, 21⟩⟩,
    ⟨.integer 4294967295, "4294967295", ⟨30, 40, 1, 31⟩⟩,
    ⟨.keyword .globalGet, "global.get", ⟨41, 51, 1, 42⟩⟩, ⟨.integer 0, "0", ⟨52, 53, 1, 53⟩⟩,
    ⟨.keyword .blockEnd, "end", ⟨54, 57, 1, 55⟩⟩, ⟨.rightParen, ")", ⟨57, 58, 1, 58⟩⟩,
    ⟨.rightParen, ")", ⟨58, 59, 1, 59⟩⟩, .endAt ⟨59, 59, 1, 60⟩]

def readingGlobal : Module where
  id := none
  fields := [.function ⟨0, 0, .ofParams [] [], [.structured .block none
    [.plain .i32Const (some (.literal (-1))) ⟨20, 29, 1, 21⟩,
      .plain .globalGet (some (.index 0)) ⟨41, 51, 1, 42⟩] ⟨14, 19, 1, 15⟩]⟩]
  environment := ⟨⟨[none], [none], [], [], [], [], []⟩⟩

theorem parse_agrees_globalInBlock :
    parse globalInBlock = .ok readingGlobal ∧
    WellWritten .i32Const (some (.literal (-1))) ∧
    (Program.ofModule readingGlobal 3).Serves .idle
      [⟨.function 0 [], .error (.unimplementedInstruction .globalGet), .idle⟩] ∧
    Keyword.globalGet ∈
      [.globalGet, .globalSet, .callIndirect, .i64Const, .f32Const, .f64Const] := by
  have lexed : tokenise globalInBlock = .ok globalInBlockTokens := by decide +kernel
  have accepted : parse globalInBlock = .ok readingGlobal := parse_eq_ok.mpr ⟨_, lexed, rfl⟩
  have served : (Program.ofModule readingGlobal 3).Serves .idle
      [⟨.function 0 [], .error (.unimplementedInstruction .globalGet), .idle⟩] := by
    have fails : (Program.ofModule readingGlobal 3).answer 8 (.function 0 []) .idle =
        some (.error (.unimplementedInstruction .globalGet), .idle) := by decide +kernel
    exact .cons fails .nil
  obtain ⟨written, ends⟩ := parse_agrees accepted
  have constant : Occurs (.plain .i32Const (some (.literal (-1))) ⟨20, 29, 1, 21⟩)
      [.structured .block none
        [.plain .i32Const (some (.literal (-1))) ⟨20, 29, 1, 21⟩,
          .plain .globalGet (some (.index 0)) ⟨41, 51, 1, 42⟩] ⟨14, 19, 1, 15⟩] :=
    .inside List.mem_cons_self (.here List.mem_cons_self)
  exact ⟨accepted, written _ List.mem_cons_self _ _ _ constant, served,
    (ends 3 .idle _ served _ List.mem_cons_self).2 .globalGet rfl⟩

end Module

end WatMachine
