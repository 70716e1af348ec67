import WatMachine.Machine.Program
import WatMachine.Proofs.Grammar.ModuleReaders

/-!
# Functions among the fields of a module

The functions that a module defines or imports are numbered in the order in
which they are written, and so are the fields that keep them.  A group
`( func … )` makes one field with its function and, directly behind it, one
for each of its inline exports; an import makes one field with the two names
that are written in it.
-/

namespace WatMachine

open TokenStream Reading Reader WrittenDefinition

namespace Field

/-- The function that a field defines or imports, with its index. -/
def callee? : Field → Option (Nat × Callee)
  | function definition => some (definition.index, .defined definition)
  | imported declaration => declaration.callee?
  | exported _ | type _ => none

end Field

namespace Module

/-- The functions of a module, with their indices, in the order of the fields
that keep them. -/
def callees (module : Module) : List (Nat × Callee) :=
  module.fields.filterMap Field.callee?

end Module

/-- The fields of inline exports of a function. -/
def inlineExports (index : Nat) (names : List String) : List Field :=
  names.map fun name => .exported ⟨name, .function, index⟩

/-- The fields that a group of a module makes, with the function in them, which
gets the given index. -/
inductive FunctionPlaced (index : Nat) : List Token → List Field → Prop where
  /-- `( func id? ( export "n" )* … )`, where no export follows. -/
  | defined {left head : Token} {name exports rest : List Token} {label : Option String}
      {names : List String} {function : FunctionDefinition} (opened : left.kind = .leftParen)
      (headed : head.kind = .keyword .funcForm) (named : Named name label)
      (exported : Many (Group .exportForm StringWord) exports names)
      (all : (TokenStream.mk rest .origin).atGroup .exportForm = false)
      (numbered : function.index = index) :
      FunctionPlaced index (left :: head :: name ++ exports ++ rest)
        (.function function :: inlineExports index names)
  /-- `( func id? ( export "n" )* ( import "m" "n" ) … )` -/
  | importedInline {left head : Token} {name exports imported rest : List Token}
      {label : Option String} {names : List String} {source importName : String} {typeIndex : Nat}
      {frame : Frame} (opened : left.kind = .leftParen) (headed : head.kind = .keyword .funcForm)
      (named : Named name label) (exported : Many (Group .exportForm StringWord) exports names)
      (importing : Group .importForm StringPair imported (source, importName)) :
      FunctionPlaced index (left :: head :: name ++ exports ++ imported ++ rest)
        (.imported ⟨source, importName, .function index typeIndex frame⟩ ::
          inlineExports index names)
  /-- `( import "m" "n" ( func … ) )` -/
  | imported {left head first second opening word : Token} {rest : List Token}
      {source name : String} {typeIndex : Nat} {frame : Frame} (opened : left.kind = .leftParen)
      (headed : head.kind = .keyword .importForm) (sourced : first.kind = .string source)
      (named : second.kind = .string name) (opens : opening.kind = .leftParen)
      (described : word.kind = .keyword .funcForm) :
      FunctionPlaced index (left :: head :: first :: second :: opening :: word :: rest)
        [.imported ⟨source, name, .function index typeIndex frame⟩]
  /-- Every other field: it writes no function, and no export but `( export "n" … )`. -/
  | other {group : List Token} {part : List Field} (unwritten : ofSpace .function [group] = [])
      (nothing : part.filterMap Field.callee? = [])
      (exports : ∀ target, .exported target ∈ part → part = [.exported target] ∧
        headWord? group = some .exportForm ∧
          group[2]?.map Token.kind = some (.string target.name)) :
      FunctionPlaced index group part

section Numbers

/-- A function is kept, whatever group writes it. -/
theorem kept_of_function {group : List Token} {written : WrittenDefinition}
    (found : ofGroup? group = some written) (isFunction : written.space = .function) :
    written.kept = true := by
  unfold ofGroup? ofKinds? at found
  split at found
  · obtain ⟨kind, _, rfl⟩ := Option.map_eq_some_iff.mp found
    rfl
  · obtain ⟨space, _, rfl⟩ := Option.map_eq_some_iff.mp found
    exact beq_iff_eq.mpr isFunction
  · cases found

theorem callee?_index (field : Field) :
    field.callee?.map Prod.fst = (field.definition?.filter (·.1 == .function)).map Prod.snd := by
  cases field with
  | function _ | exported _ | type _ => rfl
  | imported declaration =>
      obtain ⟨source, name, target⟩ := declaration
      cases target <;> rfl

/-- A field has the index that the definitions before it have left. -/
theorem FieldRead.callees {before after : Declarations} {group : List Token} {part : List Field}
    (read : FieldRead before group part after) :
    (part.filterMap Field.callee?).map Prod.fst =
      List.range' (before.claimed.get .function) (ofSpace .function [group]).length := by
  have indices : (part.filterMap Field.callee?).map Prod.fst =
      ((part.filterMap Field.definition?).filter (·.1 == .function)).map Prod.snd := by
    simp only [List.map_filterMap, List.filter_filterMap, callee?_index]
  rw [indices, read.indices]
  cases found : ofGroup? group with
  | none => simp [ofSpace_singleton_of_none found]
  | some written =>
      rw [ofSpace_singleton_of_some found]
      by_cases isFunction : written.space = .function
      · simp [isFunction, Option.filter, kept_of_function found isFunction]
      · cases kept : written.kept <;> simp [isFunction, kept, Ne.symm isFunction]

theorem FieldsRead.callees {before after : Declarations} {groups : List (List Token)}
    {parts : List (List Field)} (read : FieldsRead before groups parts after) :
    (parts.flatten.filterMap Field.callee?).map Prod.fst =
      List.range' (before.claimed.get .function) (ofSpace .function groups).length := by
  induction read with
  | nil => rfl
  | @cons before middle after group part groups parts first _ ih =>
      rw [List.flatten_cons, List.filterMap_append, List.map_append, first.callees, ih,
        first.claimed, ofSpace_cons .function group groups, List.length_append]
      have joined := @List.range'_append (before.claimed.get .function)
        (ofSpace .function [group]).length (ofSpace .function groups).length 1
      rwa [Nat.one_mul] at joined

/-- The functions in front of a group that writes one are not all. -/
theorem length_ofSpace_take_lt {groups : List (List Token)} {position : Nat} {group : List Token}
    (isGroup : groups[position]? = some group) (writes : ofSpace .function [group] ≠ []) :
    (ofSpace .function (groups.take position)).length < (ofSpace .function groups).length := by
  obtain ⟨inside, rfl⟩ := List.getElem?_eq_some_iff.mp isGroup
  have positive := List.length_pos_iff.mpr writes
  conv_rhs =>
    rw [← List.take_append_drop position groups, List.drop_eq_getElem_cons inside, ofSpace_append,
      ofSpace_cons]
  rw [List.length_append, List.length_append]
  omega

end Numbers

section Places

/-- A group that makes no function field writes no function. -/
theorem FunctionPlaced.of_nothing {before after : Declarations} {group : List Token}
    {part : List Field} (read : FieldRead before group part after)
    (nothing : part.filterMap Field.callee? = [])
    (exports : ∀ target, .exported target ∈ part → part = [.exported target] ∧
      headWord? group = some .exportForm ∧ group[2]?.map Token.kind = some (.string target.name)) :
    FunctionPlaced (before.claimed.get .function) group part := by
  have numbers := congrArg List.length read.callees
  rw [nothing, List.map_nil, List.length_nil, List.length_range'] at numbers
  exact .other (List.eq_nil_of_length_eq_zero numbers.symm) nothing exports

theorem FunctionWritten.placed {before after : Declarations} {readings : List Reading}
    {label : Option String} {part : List Field}
    (written : FunctionWritten before readings label part after) :
    FunctionPlaced (before.claimed.get .function) (tokens readings) part := by
  obtain @⟨left, head, right, name, exports, imported, label, names, source, type, tail, typeIndex,
    frame, field, after, opened, headed, named, exported, importing, typed, followed, closed⟩ :=
    written
  -- Behind the exports there is none that has been left out.
  have beyond : Beyond [.exportForm] (TokenStream.prepend
      (imported ++ tokens type ++ tokens tail ++ [right]) ⟨[], .origin⟩) := by
    have ended : Beyond [.exportForm, .importForm, .typeForm, .paramForm, .resultForm]
        (TokenStream.prepend [right] ⟨[], .origin⟩) := .of_rightParen closed
    have atTail := Beyond.functionTail followed ended (by decide) (by decide)
    have atType : Beyond [.exportForm, .importForm] _ :=
      .typeUse typed (atTail.mono (by simp)) (by decide)
    have atImport : Beyond [.exportForm] _ :=
      .inlineImport importing (atType.mono (by simp)) (by decide)
    simpa only [← prepend_append, List.append_assoc] using atImport
  cases followed with
  | imported =>
      cases importing with
      | written group =>
          have shape : tokens (others (left :: head :: name ++ exports ++ imported) ++ type ++ [] ++
              others [right]) =
              left :: head :: name ++ exports ++ imported ++ (tokens type ++ [right]) := by
            simp
          rw [shape]
          exact .importedInline opened headed named exported group
  | @defined groups locals body code bound read =>
      have shape : tokens (others (left :: head :: name ++ exports ++ imported) ++ type ++
          (others groups ++ body) ++ others [right]) =
          left :: head :: name ++ exports ++
            (imported ++ tokens type ++ tokens (others groups ++ body) ++ [right]) := by
        simp
      have all := beyond.free .exportForm (by simp)
      rw [shape]
      rw [prepend, List.append_nil] at all
      exact .defined opened headed named exported all rfl

theorem FieldWritten.placed {before after : Declarations} {readings : List Reading}
    {part : List Field} (written : FieldWritten before readings part after) :
    FunctionPlaced (before.claimed.get .function) (tokens readings) part := by
  have read := written.read
  cases written with
  | function written => exact written.placed
  | exported opened headed named =>
      refine .of_nothing read rfl ?_
      intro target inside
      cases List.mem_singleton.mp inside
      simp [headWord?, headed, named, TokenKind.keyword?]
  | @imported left head first second opening word closing right source name keyword kind inner
      target after opened headed sourced named opens described isKind targeted =>
      cases targeted with
      | @function name label type typeIndex frame after isName typed =>
          have isWord : keyword = .funcForm := by
            cases keyword <;> cases isKind
            rfl
          rw [isWord] at described
          rw [tokens_append, tokens_append, tokens_others]
          exact .imported opened headed sourced named opens described
      | memory | table | global =>
          refine .of_nothing read rfl ?_
          intro target inside
          cases List.mem_singleton.mp inside
  | type isGroup headed pending =>
      refine .of_nothing read rfl ?_
      intro target inside
      cases List.mem_singleton.mp inside
  | skipped isGroup other => exact .of_nothing read rfl (by simp)

end Places

section Declared

theorem FieldDeclared.claimed {before after : Declarations} {group : List Token}
    (declared : FieldDeclared before group after) : after.claimed = before.claimed := by
  cases declared with
  | type written => rfl
  | other headed => split <;> rfl

theorem FieldDeclared.names {before after : Declarations} {group : List Token}
    (declared : FieldDeclared before group after) {space : IndexSpace} (other : space ≠ .type) :
    after.environment.names.get space =
      before.environment.names.get space ++ writtenNames [group] space := by
  cases declared with
  | type written =>
      obtain ⟨name, unwritten, _⟩ := written.isGroup.written (by rw [written.headed]; decide)
      rw [written.headed] at unwritten
      rw [writtenNames, ofSpace_singleton_of_none unwritten]
      simp [Declarations.declareType, Declarations.declare, other]
  | other headed =>
      cases found : ofGroup? group with
      | none => simp [writtenNames, ofSpace_singleton_of_none found]
      | some written =>
          rw [writtenNames, ofSpace_singleton_of_some found]
          by_cases same : space = written.space
          · simp [Declarations.declare, same]
          · simp [Declarations.declare, same]

theorem FieldsDeclared.claimed {before after : Declarations} {groups : List (List Token)}
    (declared : FieldsDeclared before groups after) : after.claimed = before.claimed := by
  induction declared with
  | nil => rfl
  | cons first _ ih => rw [ih, first.claimed]

/-- The first pass declares the names that are written, in their order. -/
theorem FieldsDeclared.names {before after : Declarations} {groups : List (List Token)}
    (declared : FieldsDeclared before groups after) {space : IndexSpace} (other : space ≠ .type) :
    after.environment.names.get space =
      before.environment.names.get space ++ writtenNames groups space := by
  induction declared with
  | nil => simp [writtenNames, ofSpace]
  | @cons _ _ _ group groups first _ ih =>
      have joined : writtenNames (group :: groups) space =
          writtenNames [group] space ++ writtenNames groups space := by
        simp only [writtenNames, ofSpace_cons space group groups, List.map_append]
      rw [ih, first.names other, joined, List.append_assoc]

end Declared

theorem RefersTo.lt_or_number {names : List (Option String)} {token : Token} {index : Nat}
    (refers : RefersTo names token index) :
    index < names.length ∨ ∃ value, token.kind = .integer value := by
  cases refers with
  | number kind _ _ => exact .inr ⟨_, kind⟩
  | name kind first =>
      obtain ⟨inside, _⟩ := List.getElem?_eq_some_iff.mp first.1
      exact .inl inside

namespace FieldsWritten

variable {before after : Declarations} {groups : List (List Reading)} {parts : List (List Field)}

theorem at_position (written : FieldsWritten before groups parts after) {position : Nat}
    {group : List Token} {part : List Field} (isGroup : (groups.map tokens)[position]? = some group)
    (isPart : parts[position]? = some part) :
    ∃ here next readings, FieldsWritten before (groups.take position) (parts.take position) here ∧
      tokens readings = group ∧ FieldWritten here readings part next := by
  induction written generalizing position with
  | nil => simp at isGroup
  | cons first others ih =>
      cases position with
      | zero =>
          simp only [List.map_cons, List.getElem?_cons_zero, Option.some.injEq] at isGroup isPart
          subst isPart
          exact ⟨_, _, _, .nil, isGroup, first⟩
      | succ position =>
          obtain ⟨here, next, readings, earlier, shape, this⟩ := ih isGroup isPart
          exact ⟨here, next, readings, .cons first earlier, shape, this⟩

variable (written : FieldsWritten before groups parts after)
  (size : after.environment.size .function = (ofSpace .function (groups.map tokens)).length)
  (unclaimed : before.claimed.get .function = 0) {position : Nat} {group : List Token}
  {part : List Field} (isGroup : (groups.map tokens)[position]? = some group)
  (isPart : parts[position]? = some part)

include written in
/-- The names of functions are the same wherever a field stands. -/
theorem functionNames {front : List (List Reading)} {results : List (List Field)}
    {here : Declarations} (earlier : FieldsWritten before front results here) :
    here.environment.names.get .function = after.environment.names.get .function := by
  rw [earlier.read.names .function (by decide), written.read.names .function (by decide)]

include written unclaimed isGroup isPart

theorem placed :
    FunctionPlaced ((parts.take position).flatten.filterMap Field.callee?).length group part := by
  obtain ⟨here, next, readings, earlier, rfl, this⟩ := written.at_position isGroup isPart
  have counted := congrArg List.length earlier.read.callees
  rw [List.length_map, List.length_range'] at counted
  have claimed := earlier.read.claimed .function
  rw [unclaimed, Nat.zero_add, ← counted] at claimed
  rw [← claimed]
  exact this.placed

omit unclaimed in
theorem calls {function : FunctionDefinition} (inside : .function function ∈ part)
    {operand : Option Operand} {span : Source.Span}
    (occurs : Occurs (.plain .call operand span) function.body) :
    ∃ word reference index, [word, reference] <:+: group ∧ word.kind = .keyword .call ∧
      word.span = span ∧ operand = some (.index index) ∧
      (index < after.environment.size .function ∨ ∃ value, reference.kind = .integer value) := by
  obtain ⟨here, next, readings, earlier, rfl, this⟩ := written.at_position isGroup isPart
  obtain ⟨word, reference, index, found, kind, place, isOperand, refers⟩ :=
    (this.read.bodies function inside).refersTo occurs rfl
  rw [written.functionNames earlier] at refers
  exact ⟨word, reference, index, found.trans (List.dropLast_prefix _).isInfix, kind, place,
    isOperand, refers.lt_or_number⟩

include size in
theorem exports {target : Export} (inside : .exported target ∈ part)
    (isFunction : target.kind = .function) :
    target.index < after.environment.size .function ∨
      ∃ word reference value, [word, reference] <:+: group ∧ word.kind = .keyword .funcForm ∧
        reference.kind = .integer value := by
  obtain ⟨here, next, readings, earlier, rfl, this⟩ := written.at_position isGroup isPart
  rcases this.read.exports target inside with ⟨headed, _, isIndex⟩ | ⟨_, exported⟩
  · have writes : ofSpace .function [tokens readings] ≠ [] := by
      obtain ⟨name, isWritten, _⟩ := this.read.isGroup.written (by rw [headed]; decide)
      rw [headed] at isWritten
      simp [ofSpace_singleton_of_some isWritten]
    have before := length_ofSpace_take_lt isGroup writes
    have claimed := earlier.read.claimed .function
    rw [unclaimed, Nat.zero_add, List.map_take] at claimed
    left
    rw [isIndex, claimed, size]
    exact before
  · obtain ⟨word, reference, found, isKind, refers⟩ := exported
    have isWord : word.kind = .keyword .funcForm := by
      obtain ⟨keyword, isKeyword, isFunctionWord⟩ := Option.bind_eq_some_iff.mp isKind
      rw [isFunction] at isFunctionWord
      cases keyword <;> cases isFunctionWord
      exact TokenKind.keyword?_eq_some.mp isKeyword
    rw [isFunction, ExternalKind.space, written.functionNames earlier] at refers
    rcases refers.lt_or_number with inside | ⟨value, number⟩
    · exact .inl inside
    · exact .inr ⟨word, reference, value, found, isWord, number⟩

end FieldsWritten

/-- What is known of the functions of a module that was read from the groups of
its fields, each of which gave a part of them. -/
structure Module.FunctionsPlaced (module : Module) (groups : List (List Token))
    (parts : List (List Field)) : Prop where
  fields : module.fields = parts.flatten
  length_parts : parts.length = groups.length
  /-- The function of a group has the number of functions in front of it as its
  index. -/
  each : ∀ position group part, groups[position]? = some group → parts[position]? = some part →
    FunctionPlaced ((parts.take position).flatten.filterMap Field.callee?).length group part
  indices : module.callees.map Prod.fst = List.range (module.environment.size .function)
  /-- A call means a function of the module, or is written with a number. -/
  calls : ∀ (position : Nat) (group : List Token) (part : List Field),
    groups[position]? = some group → parts[position]? = some part →
    ∀ function, .function function ∈ part → ∀ operand span,
      Occurs (.plain .call operand span) function.body →
      ∃ word reference index, [word, reference] <:+: group ∧ word.kind = .keyword .call ∧
        word.span = span ∧ operand = some (.index index) ∧
        (index < module.environment.size .function ∨ ∃ value, reference.kind = .integer value)
  /-- So does an export of a function. -/
  exports : ∀ (position : Nat) (group : List Token) (part : List Field),
    groups[position]? = some group → parts[position]? = some part →
    ∀ target, .exported target ∈ part → target.kind = .function →
      target.index < module.environment.size .function ∨
        ∃ word reference value, [word, reference] <:+: group ∧ word.kind = .keyword .funcForm ∧
          reference.kind = .integer value

theorem ModuleWritten.functionsPlaced {readings : List Reading} {module : Module}
    (written : ModuleWritten readings module) :
    ∃ (left word right : Token) (name : List Token) (groups : List (List Token))
      (parts : List (List Field)),
      tokens readings = left :: word :: name ++ groups.flatten ++ [right] ∧
      left.kind = .leftParen ∧ word.kind = .keyword .moduleForm ∧ Named name module.id ∧
      right.kind = .rightParen ∧ module.FunctionsPlaced groups parts := by
  obtain @⟨left, word, right, name, label, groups, parts, middle, final, opened, headed, named,
    declared, fields, closed⟩ := written
  have read := fields.read
  have size : final.environment.size .function =
      (ofSpace .function (groups.map tokens)).length := by
    rw [Environment.size, read.names .function (by decide), declared.names (by decide)]
    simp [writtenNames, Declarations.empty, Environment.empty]
  have unclaimed : middle.claimed.get .function = 0 := by
    rw [declared.claimed]
    rfl
  refine ⟨left, word, right, name, groups.map tokens, parts, by simp, opened, headed, named, closed,
    rfl, read.length_parts, ?_, ?_, ?_, ?_⟩
  · intro position group part isGroup isPart
    exact fields.placed unclaimed isGroup isPart
  · rw [Module.callees, read.callees, unclaimed, size, List.range_eq_range']
  · intro position group part isGroup isPart function inside operand span occurs
    exact fields.calls isGroup isPart inside occurs
  · intro position group part isGroup isPart target inside isFunction
    exact fields.exports size unclaimed isGroup isPart inside isFunction

end WatMachine
