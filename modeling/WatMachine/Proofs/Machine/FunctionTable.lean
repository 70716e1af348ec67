import WatMachine.Proofs.Grammar.FunctionFields
import WatMachine.Proofs.Machine.DepthLimit
import WatMachine.Proofs.Token.Layouts

/-!
# The table of functions

A program finds its functions in a table that takes the definitions of a
module first and its imports after them, where a later entry would hide an
earlier one.  In a module that was read no entry is hidden: the functions have
the indices 0, 1, 2, … in the order of their fields, so that the table shows
each of them under its own index and nothing beyond them.

Errors about functions come from this table alone, whatever calls are active
when they appear.
-/

namespace WatMachine

open Reading

section Entries

theorem lookup_eq_some_iff_mem {entries : List (Nat × Callee)}
    (distinct : (entries.map Prod.fst).Nodup) {index : Nat} {callee : Callee} :
    entries.lookup index = some callee ↔ (index, callee) ∈ entries := by
  rw [List.lookup_eq_some_iff]
  constructor
  · rintro ⟨front, back, rfl, _⟩
    simp
  · intro among
    obtain ⟨front, back, rfl⟩ := List.append_of_mem among
    refine ⟨front, back, rfl, ?_⟩
    intro entry earlier
    rw [List.map_append, List.map_cons, List.nodup_append] at distinct
    have differs := distinct.2.2 entry.1 (List.mem_map_of_mem earlier) index List.mem_cons_self
    simpa using Ne.symm differs

/-- Where entries are numbered one by one, the entry of a number is the one at
its place. -/
theorem mem_iff_getElem?_of_numbered {entries : List (Nat × Callee)} {count index : Nat}
    {callee : Callee} (numbered : entries.map Prod.fst = List.range count) :
    (index, callee) ∈ entries ↔ entries[index]? = some (index, callee) := by
  constructor
  · intro among
    obtain ⟨place, inside, found⟩ := List.mem_iff_getElem.mp among
    have number : (entries.map Prod.fst)[place]? = some index := by
      rw [List.getElem?_map, List.getElem?_eq_getElem inside, found]
      rfl
    rw [numbered] at number
    obtain ⟨_, same⟩ := List.getElem?_eq_some_iff.mp number
    rw [List.getElem_range] at same
    rw [← same, List.getElem?_eq_getElem inside, found, same]
  · exact List.mem_of_getElem?

end Entries

namespace Program

variable {module : Module} {maxCallDepth : Nat}

/-- The table has the functions of a module, in another order. -/
theorem functions_perm (module : Module) (maxCallDepth : Nat) :
    (ofModule module maxCallDepth).functions.Perm module.callees := by
  have sorted (fields : List Field) :
      ((fields.filterMap Field.function?).map
          (fun function => (function.index, Callee.defined function)) ++
        (fields.filterMap Field.imported?).filterMap Import.callee?).Perm
      (fields.filterMap Field.callee?) := by
    induction fields with
    | nil => exact .nil
    | cons field fields ih =>
        cases field with
        | function definition => exact ih.cons _
        | imported declaration =>
            cases found : declaration.callee? with
            | none =>
                simpa [List.filterMap_cons, Field.function?, Field.imported?, Field.callee?, found]
                  using ih
            | some entry =>
                have moved := List.perm_middle.trans (ih.cons entry)
                simpa [List.filterMap_cons, Field.function?, Field.imported?, Field.callee?, found]
                  using moved
        | exported _ | type _ => exact ih
  exact (List.reverse_perm _).trans (sorted module.fields)

section Numbered

variable (numbered : module.callees.map Prod.fst = List.range (module.environment.size .function))

include numbered

theorem functions_indices :
    ((ofModule module maxCallDepth).functions.map Prod.fst).Perm
      (List.range (module.environment.size .function)) := by
  rw [← numbered]
  exact (functions_perm module maxCallDepth).map Prod.fst

/-- An index stands for the function that has so many functions before it. -/
theorem callee?_eq_some {index : Nat} {callee : Callee} :
    (ofModule module maxCallDepth).callee? index = some callee ↔
      module.callees[index]? = some (index, callee) := by
  have distinct : ((ofModule module maxCallDepth).functions.map Prod.fst).Nodup :=
    (functions_indices numbered).nodup_iff.mpr List.nodup_range
  rw [callee?, lookup_eq_some_iff_mem distinct, (functions_perm module maxCallDepth).mem_iff,
    mem_iff_getElem?_of_numbered numbered]

theorem callee?_eq_none {index : Nat} :
    (ofModule module maxCallDepth).callee? index = none ↔
      module.environment.size .function ≤ index := by
  have length : module.callees.length = module.environment.size .function := by
    rw [← List.length_map Prod.fst, numbered, List.length_range]
  constructor
  · intro missing
    by_contra within
    have inside : index < module.callees.length := by omega
    have number : (module.callees.map Prod.fst)[index]? = some index := by
      rw [numbered, List.getElem?_range (by omega)]
    rw [List.getElem?_map, List.getElem?_eq_getElem inside] at number
    have found : (ofModule module maxCallDepth).callee? index = some module.callees[index].2 := by
      rw [callee?_eq_some numbered, List.getElem?_eq_getElem inside]
      exact congrArg some (Prod.ext (Option.some.inj number) rfl)
    rw [missing] at found
    cases found
  · intro beyond
    rw [Option.eq_none_iff_forall_ne_some]
    intro callee found
    obtain ⟨inside, _⟩ := List.getElem?_eq_some_iff.mp ((callee?_eq_some numbered).mp found)
    omega

end Numbered

theorem definition_apply (program : Program) (index : Nat) :
    program.definition index =
      match program.callee? index with
      | none => .error (.unknownFunction index)
      | some (.defined function) => .ok function
      | some (.imported declaration _) =>
          .error (.unlinkedImport declaration.source declaration.name) := by
  unfold definition callee
  rcases program.callee? index with _ | _ | _ <;> rfl

theorem definition_eq_unknownFunction {program : Program} {index unknown : Nat} :
    program.definition index = .error (.unknownFunction unknown) ↔
      index = unknown ∧ program.callee? index = none := by
  rw [definition_apply]
  rcases program.callee? index with _ | _ | _ <;> simp

theorem definition_eq_unlinkedImport {program : Program} {index : Nat} {source name : String} :
    program.definition index = .error (.unlinkedImport source name) ↔
      ∃ target frame, program.callee? index = some (.imported ⟨source, name, target⟩ frame) := by
  rw [definition_apply]
  rcases program.callee? index with _ | function | ⟨⟨_, _, _⟩, _⟩ <;> simp

end Program

namespace RuntimeError

/-- Whether an error is about a function that cannot be executed. -/
def isLookup : RuntimeError → Bool
  | unknownFunction _ | unlinkedImport _ _ => true
  | _ => false

theorem isLookup_of_isLocal {error : RuntimeError} (isLocal : error.isLocal = true) :
    error.isLookup = false := by
  cases error <;> first | rfl | cases isLocal

end RuntimeError

/-- Whether an error, if it is about a function, is what looking up some index
gives. -/
def Program.Explains (program : Program) (error : RuntimeError) : Prop :=
  error.isLookup = true → ∃ index, program.definition index = .error error

theorem Program.explains_of_other (program : Program) {error : RuntimeError}
    (other : error.isLookup = false) : program.Explains error := by
  intro isLookup
  rw [other] at isLookup
  cases isLookup

/-- An error about a function, wherever execution meets it, is what looking up
an index gives. -/
theorem Program.raises_explained (program : Program) : program.Raises program.Explains where
  ofStack _ isLocal := program.explains_of_other (RuntimeError.isLookup_of_isLocal isLocal)
  ofLookup index _ failed _ := ⟨index, failed⟩
  ofLimit := program.explains_of_other rfl
  ofBranch _ := program.explains_of_other rfl

namespace Execution

section Calls

variable {program : Program} {fuel index : Nat} {machine after : Machine}

/-- Below the limit of calls, a function that cannot be executed is refused
before anything else happens. -/
theorem call_of_definition_error {error : RuntimeError}
    (below : machine.depth < program.maxCallDepth)
    (refused : program.definition index = .error error) :
    call program (fuel + 1) index machine = some (.error error, machine) := by
  have fails : enter program index machine = some (.error error, machine) := by
    rw [enter_of_lt program index below, startCall, bind_apply, liftM_apply, refused]
  rw [call, bind_apply, fails]

/-- A call complains about its own index exactly if it is below the limit of
calls and the table has no such index. -/
theorem call_unknownFunction_iff :
    (∃ after, call program (fuel + 1) index machine =
      some (.error (.unknownFunction index), after)) ↔
    machine.depth < program.maxCallDepth ∧ program.callee? index = none := by
  constructor
  · rintro ⟨after, failed⟩
    constructor
    · by_contra refused
      have overflows := enter_of_le program index (Nat.le_of_not_lt refused)
      rw [call, bind_apply, overflows] at failed
      cases failed
    · obtain ⟨other, looked⟩ := (program.raises_explained.execution (fuel + 1)).1 _ _ _ _ failed rfl
      obtain ⟨rfl, missing⟩ := Program.definition_eq_unknownFunction.mp looked
      exact missing
  · rintro ⟨below, missing⟩
    exact ⟨machine, call_of_definition_error below
      (Program.definition_eq_unknownFunction.mpr ⟨rfl, missing⟩)⟩

/-- A call complains about an import only if a function is imported by these
names. -/
theorem exists_import_of_call {source name : String}
    (failed : call program fuel index machine =
      some (.error (.unlinkedImport source name), after)) :
    ∃ imported target frame,
      program.callee? imported = some (.imported ⟨source, name, target⟩ frame) := by
  obtain ⟨imported, looked⟩ := (program.raises_explained.execution fuel).1 _ _ _ _ failed rfl
  exact ⟨imported, Program.definition_eq_unlinkedImport.mp looked⟩

end Calls

end Execution

namespace Program

open Execution

variable {program : Program} {fuel index : Nat} {arguments : List Int32} {machine after : Machine}

/-- A call from outside complains about its own index exactly if the table has
no such index. -/
theorem invoke_unknownFunction_iff :
    (∃ after, program.invoke fuel index arguments machine =
      some (.error (.unknownFunction index), after)) ↔ program.callee? index = none := by
  constructor
  · rintro ⟨after, failed⟩
    obtain ⟨other, looked⟩ := program.raises_explained.invoke _ _ _ _ _ _ failed rfl
    obtain ⟨rfl, missing⟩ := definition_eq_unknownFunction.mp looked
    exact missing
  · intro missing
    refine ⟨machine, ?_⟩
    rw [invoke_apply, callee, missing]

theorem exists_import_of_invoke {source name : String}
    (failed : program.invoke fuel index arguments machine =
      some (.error (.unlinkedImport source name), after)) :
    ∃ imported target frame,
      program.callee? imported = some (.imported ⟨source, name, target⟩ frame) := by
  obtain ⟨imported, looked⟩ := program.raises_explained.invoke _ _ _ _ _ _ failed rfl
  exact ⟨imported, definition_eq_unlinkedImport.mp looked⟩

/-- An export name means the first field that exports something by it. -/
theorem export?_eq_some {module : Module} {maxCallDepth : Nat} {name : String} {target : Export} :
    (ofModule module maxCallDepth).export? name = some target ↔
      ∃ before after, module.fields = before ++ .exported target :: after ∧ target.name = name ∧
        ∀ other, .exported other ∈ before → other.name ≠ name := by
  have isExported {field : Field} {found : Export} :
      field.exported? = some found ↔ field = .exported found := by
    cases field <;> simp [Field.exported?]
  have unfolded : (ofModule module maxCallDepth).export? name =
      (module.fields.find? fun field => field.exported?.any (·.name == name)).bind
        Field.exported? :=
    List.find?_filterMap
  rw [unfolded, Option.bind_eq_some_iff]
  simp only [isExported, List.find?_eq_some_iff_append]
  constructor
  · rintro ⟨_, ⟨named, before, after, shape, earlier⟩, rfl⟩
    refine ⟨before, after, shape, by simpa [Field.exported?] using named, ?_⟩
    intro other inside
    simpa [Field.exported?] using earlier _ inside
  · rintro ⟨before, after, shape, named, earlier⟩
    refine ⟨_, ⟨by simp [Field.exported?, named], before, after, shape, ?_⟩, rfl⟩
    intro field inside
    cases field with
    | exported other => simpa [Field.exported?] using earlier other inside
    | function _ | imported _ | type _ => rfl

/-- What a program finds in its tables. -/
structure Tabulates (program : Program) (module : Module) : Prop where
  /-- Every index of the module has one entry, and no other index has any. -/
  indices : (program.functions.map Prod.fst).Perm (List.range (module.environment.size .function))
  /-- An index stands for the function that has so many functions before it. -/
  callees : ∀ index callee,
    program.callee? index = some callee ↔ module.callees[index]? = some (index, callee)
  unknownCall : ∀ fuel index machine,
    (∃ after, Execution.call program (fuel + 1) index machine =
      some (.error (.unknownFunction index), after)) ↔
    machine.depth < program.maxCallDepth ∧ module.environment.size .function ≤ index
  unknownInvocation : ∀ fuel index arguments machine,
    (∃ after, program.invoke fuel index arguments machine =
      some (.error (.unknownFunction index), after)) ↔
    module.environment.size .function ≤ index
  /-- A call of an imported function fails with the names of the import. -/
  importedCall : ∀ fuel index machine source name target frame,
    module.callees[index]? = some (index, .imported ⟨source, name, target⟩ frame) →
    machine.depth < program.maxCallDepth →
    Execution.call program (fuel + 1) index machine =
      some (.error (.unlinkedImport source name), machine)
  /-- No call fails like this but for an imported function of these names. -/
  unlinked : ∀ fuel index machine source name after,
    Execution.call program fuel index machine =
      some (.error (.unlinkedImport source name), after) ∨
    (∃ arguments, program.invoke fuel index arguments machine =
      some (.error (.unlinkedImport source name), after)) →
    ∃ (imported : Nat) (target : ImportTarget) (frame : Frame),
      module.callees[imported]? = some (imported, .imported ⟨source, name, target⟩ frame)
  exports : ∀ name target, program.export? name = some target ↔
    ∃ before after, module.fields = before ++ .exported target :: after ∧ target.name = name ∧
      ∀ other, .exported other ∈ before → other.name ≠ name

theorem tabulates_of_numbered {module : Module}
    (numbered : module.callees.map Prod.fst = List.range (module.environment.size .function))
    (maxCallDepth : Nat) : (ofModule module maxCallDepth).Tabulates module where
  indices := functions_indices numbered
  callees _ _ := callee?_eq_some numbered
  unknownCall fuel index machine := by
    rw [call_unknownFunction_iff, callee?_eq_none numbered]
  unknownInvocation fuel index arguments machine := by
    rw [invoke_unknownFunction_iff, callee?_eq_none numbered]
  importedCall fuel index machine source name target frame found below :=
    call_of_definition_error below
      (definition_eq_unlinkedImport.mpr ⟨target, frame, (callee?_eq_some numbered).mpr found⟩)
  unlinked fuel index machine source name after failed := by
    have callees (index : Nat) (callee : Callee) :=
      @callee?_eq_some module maxCallDepth numbered index callee
    simp only [← callees]
    rcases failed with failed | ⟨arguments, failed⟩
    · exact exists_import_of_call failed
    · exact exists_import_of_invoke failed
  exports _ _ := export?_eq_some

end Program

namespace Module

/-- A source that is accepted is a module from its first token to the end of
the input. -/
theorem parse_written {source : String} {module : Module} (accepted : parse source = .ok module) :
    ∃ readings last, tokenise source = .ok (tokens readings ++ [last]) ∧
      last.kind = .endOfInput ∧ ModuleWritten readings module := by
  obtain ⟨all, lexed, read⟩ := parse_eq_ok.mp accepted
  obtain ⟨lexemes, last, rfl, isEnd, -, spell, -⟩ := Cursor.tokens_laidOut lexed
  obtain ⟨readings, rest, shape, written, ended⟩ := ofStream_eq_ok.mp read
  have ends : last.isEnd = true := beq_iff_eq.mpr isEnd
  rw [TokenStream.ofTokens_concat, if_pos ends] at shape
  have whole : lexemes = tokens readings ++ rest.ahead := congrArg TokenStream.ahead shape
  -- No lexeme ends the input, so nothing but the end is left behind the module.
  have nothing : rest.ahead = [] := by
    cases behind : rest.ahead with
    | nil => rfl
    | cons token others =>
        rw [TokenStream.current, TokenStream.nth, behind] at ended
        have inside : token ∈ lexemes := by
          rw [whole, behind]
          simp
        exact absurd (beq_iff_eq.mp ended) (spell token inside).notEnd
  rw [nothing, List.append_nil] at whole
  exact ⟨readings, last, by rw [lexed, whole], isEnd, written⟩

/-- The functions of a source that is accepted and the tables of a program made
of it.  The fields stand in the order of the groups that the source writes, and
each function has the number of functions before it as its index; inline
exports come directly behind their function.  The program finds every function
under its index, complains about an index exactly if the source has no such
function and about an import only by the names that are written in it, and
finds the first export of a name. -/
theorem parse_tabulates {source : String} {module : Module}
    (accepted : parse source = .ok module) (maxCallDepth : Nat) :
    (∃ (left word right last : Token) (name : List Token) (groups : List (List Token))
      (parts : List (List Field)),
      tokenise source = .ok (left :: word :: name ++ groups.flatten ++ [right, last]) ∧
      left.kind = .leftParen ∧ word.kind = .keyword .moduleForm ∧ Named name module.id ∧
      right.kind = .rightParen ∧ last.kind = .endOfInput ∧
      module.FunctionsPlaced groups parts) ∧
    (Program.ofModule module maxCallDepth).Tabulates module := by
  obtain ⟨readings, last, lexed, isEnd, written⟩ := parse_written accepted
  obtain ⟨left, word, right, name, groups, parts, shape, opened, headed, named, closed, placed⟩ :=
    written.functionsPlaced
  refine ⟨⟨left, word, right, last, name, groups, parts, ?_, opened, headed, named, closed, isEnd,
    placed⟩, Program.tabulates_of_numbered placed.indices maxCallDepth⟩
  rw [lexed, shape]
  simp

/-- A function that calls an import behind it, and two exports of one name, the
second of which is of no function of the module. -/
def exportedTwice : String :=
  "(module (func (export \"a\") call $g) (import \"m\" \"n\" (func $g)) (export \"a\" (func 7)))"

def exportedTwiceTokens : List Token :=
  [⟨.leftParen, "(", ⟨0, 1, 1, 1⟩⟩, ⟨.keyword .moduleForm, "module", ⟨1, 7, 1, 2⟩⟩,
    ⟨.leftParen, "(", ⟨8, 9, 1, 9⟩⟩, ⟨.keyword .funcForm, "func", ⟨9, 13, 1, 10⟩⟩,
    ⟨.leftParen, "(", ⟨14, 15, 1, 15⟩⟩, ⟨.keyword .exportForm, "export", ⟨15, 21, 1, 16⟩⟩,
    ⟨.string "a", "\"a\"", ⟨22, 25, 1, 23⟩⟩, ⟨.rightParen, ")", ⟨25, 26, 1, 26⟩⟩,
    ⟨.keyword .call, "call", ⟨27, 31, 1, 28⟩⟩, ⟨.identifier "g", "$g", ⟨32, 34, 1, 33⟩⟩,
    ⟨.rightParen, ")", ⟨34, 35, 1, 35⟩⟩, ⟨.leftParen, "(", ⟨36, 37, 1, 37⟩⟩,
    ⟨.keyword .importForm, "import", ⟨37, 43, 1, 38⟩⟩, ⟨.string "m", "\"m\"", ⟨44, 47, 1, 45⟩⟩,
    ⟨.string "n", "\"n\"", ⟨48, 51, 1, 49⟩⟩, ⟨.leftParen, "(", ⟨52, 53, 1, 53⟩⟩,
    ⟨.keyword .funcForm, "func", ⟨53, 57, 1, 54⟩⟩, ⟨.identifier "g", "$g", ⟨58, 60, 1, 59⟩⟩,
    ⟨.rightParen, ")", ⟨60, 61, 1, 61⟩⟩, ⟨.rightParen, ")", ⟨61, 62, 1, 62⟩⟩,
    ⟨.leftParen, "(", ⟨63, 64, 1, 64⟩⟩, ⟨.keyword .exportForm, "export", ⟨64, 70, 1, 65⟩⟩,
    ⟨.string "a", "\"a\"", ⟨71, 74, 1, 72⟩⟩, ⟨.leftParen, "(", ⟨75, 76, 1, 76⟩⟩,
    ⟨.keyword .funcForm, "func", ⟨76, 80, 1, 77⟩⟩, ⟨.integer 7, "7", ⟨81, 82, 1, 82⟩⟩,
    ⟨.rightParen, ")", ⟨82, 83, 1, 83⟩⟩, ⟨.rightParen, ")", ⟨83, 84, 1, 84⟩⟩,
    ⟨.rightParen, ")", ⟨84, 85, 1, 85⟩⟩, .endAt ⟨85, 85, 1, 86⟩]

def exportingTwice : Module where
  id := none
  fields := [.function ⟨0, 0, .ofParams [] [], [.plain .call (some (.index 1)) ⟨27, 31, 1, 28⟩]⟩,
    .exported ⟨"a", .function, 0⟩, .imported ⟨"m", "n", .function 1 1 (.ofParams [] [])⟩,
    .exported ⟨"a", .function, 7⟩]
  environment := ⟨⟨[none, none], [none, some "g"], [], [], [], [], []⟩⟩

theorem parse_tabulates_exportedTwice :
    parse exportedTwice = .ok exportingTwice ∧
    (∃ after, (Program.ofModule exportingTwice 9).invoke 4 7 [] .idle =
      some (.error (.unknownFunction 7), after)) ∧
    Execution.call (Program.ofModule exportingTwice 9) 4 1 .idle =
      some (.error (.unlinkedImport "m" "n"), .idle) ∧
    (Program.ofModule exportingTwice 9).export? "a" = some ⟨"a", .function, 0⟩ := by
  have lexed : tokenise exportedTwice = .ok exportedTwiceTokens := by decide +kernel
  have accepted : parse exportedTwice = .ok exportingTwice := parse_eq_ok.mpr ⟨_, lexed, rfl⟩
  obtain ⟨_, tables⟩ := parse_tabulates accepted 9
  refine ⟨accepted, (tables.unknownInvocation 4 7 [] .idle).mpr (by decide),
    tables.importedCall 3 1 .idle "m" "n" _ _ rfl (by decide), (tables.exports _ _).mpr ?_⟩
  refine ⟨_ :: [], _, rfl, rfl, ?_⟩
  simp

end Module

end WatMachine
