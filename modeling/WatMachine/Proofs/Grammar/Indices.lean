import WatMachine.Proofs.Grammar.Passes
import WatMachine.Proofs.Grammar.References

/-!
# The indices of a module

The indices of a module that was read can be told from the groups of its
fields: definitions of a space are numbered in the order in which they are
written, and a reference by name means the first definition of the whole
module that is written with the name.
-/

namespace WatMachine

open TokenStream WrittenDefinition Reader

/-- The names that some groups write for the definitions of a space. -/
def writtenNames (groups : List (List Token)) (space : IndexSpace) : List (Option String) :=
  (ofSpace space groups).map (·.name)

/-- What is known of the part of a module that one of its groups gave.  The
groups before it fix the index of its definition, and all groups fix what its
references mean. -/
structure FieldIndexed (declarations : Declarations) (groups earlier : List (List Token))
    (group : List Token) (part : List Field) : Prop where
  indices : part.filterMap Field.definition? =
    ((ofGroup? group).filter (·.kept)).toList.map fun written =>
      (written.space, (ofSpace written.space earlier).length)
  bodies : ∀ function, .function function ∈ part → BodyRead declarations group.dropLast function
  references : ∀ function, .function function ∈ part → ∀ opcode operand span space,
    Occurs (.plain opcode operand span) function.body → opcode.referenceSpace? = some space →
      ∃ word reference index, [word, reference] <:+: group ∧ word.kind = .keyword opcode ∧
        word.span = span ∧ operand = some (.index index) ∧
        RefersTo (writtenNames groups space) reference index
  exported : headWord? group = some .exportForm → ∃ target, part = [.exported target]
  /-- Exports inside functions mean the function, others what they refer to. -/
  exports : ∀ target, .exported target ∈ part →
    headWord? group = some .funcForm ∧ target.kind = .function ∧
        target.index = (ofSpace .function earlier).length ∨
      headWord? group = some .exportForm ∧
        ∃ word reference, [word, reference] <:+: group ∧
          word.kind.keyword?.bind ExternalKind.ofKeyword? = some target.kind ∧
          RefersTo (writtenNames groups target.kind.space) reference target.index

/-- What is known of the definitions and references of a module that was read
from the groups of its fields, each of which gave a part of them. -/
structure Module.Indexed (module : Module) (declarations : Declarations)
    (groups : List (List Token)) (parts : List (List Field)) : Prop where
  isGroup : ∀ group ∈ groups, IsGroup group
  fields : module.fields = parts.flatten
  length_parts : parts.length = groups.length
  environment : module.environment = declarations.environment
  names : ∀ space, space ≠ .type → module.environment.names.get space = writtenNames groups space
  claimed : ∀ space, space ≠ .type →
    declarations.claimed.get space = module.environment.size space
  each : ∀ position group part, groups[position]? = some group → parts[position]? = some part →
    FieldIndexed declarations groups (groups.take position) group part

theorem space_ne_type_of_referenceSpace? {opcode : Keyword} {space : IndexSpace}
    (referring : opcode.referenceSpace? = some space) : space ≠ .type := by
  rintro rfl
  cases opcode <;> cases referring

theorem BodyRead.refersTo {declarations : Declarations} {tokens : List Token}
    {function : FunctionDefinition} {opcode : Keyword} {operand : Option Operand}
    {span : Source.Span} {space : IndexSpace} (read : BodyRead declarations tokens function)
    (occurs : Occurs (.plain opcode operand span) function.body)
    (referring : opcode.referenceSpace? = some space) :
    ∃ word reference index, [word, reference] <:+: tokens ∧ word.kind = .keyword opcode ∧
      word.span = span ∧ operand = some (.index index) ∧
      RefersTo (declarations.environment.names.get space) reference index := by
  obtain ⟨environment, body, last, names, derived⟩ := read
  obtain ⟨scope, word, immediate, rfl, found, kind, place, isImmediate⟩ := derived.plainRead occurs
  obtain ⟨reference, index, rfl, rfl, refers⟩ := isImmediate.refersTo referring
  rw [names space (space_ne_type_of_referenceSpace? referring)] at refers
  exact ⟨word, reference, index, found.trans last.isInfix, kind, place, rfl, refers⟩

/-- A field that is read when all names of the module are declared, and the
definitions before it are claimed. -/
theorem FieldRead.indexed {here next after : Declarations} {group : List Token}
    {part : List Field} {groups earlier : List (List Token)}
    (read : FieldRead here group part next)
    (claimed : ∀ space, here.claimed.get space = (ofSpace space earlier).length)
    (names : ∀ space, space ≠ .type →
      here.environment.names.get space = after.environment.names.get space)
    (written : ∀ space, space ≠ .type →
      after.environment.names.get space = writtenNames groups space) :
    FieldIndexed after groups earlier group part := by
  have bodies : ∀ function, .function function ∈ part →
      BodyRead after group.dropLast function := by
    intro function inside
    obtain ⟨environment, body, last, same, derived⟩ := read.bodies function inside
    exact ⟨environment, body, last, fun space other => (same space other).trans (names space other),
      derived⟩
  refine ⟨?_, bodies, ?_, read.exported, ?_⟩
  · simp only [read.indices, claimed]
  · intro function inside opcode operand span space occurs referring
    obtain ⟨word, reference, index, found, kind, place, isOperand, refers⟩ :=
      (bodies function inside).refersTo occurs referring
    rw [written space (space_ne_type_of_referenceSpace? referring)] at refers
    exact ⟨word, reference, index, found.trans (List.dropLast_prefix group).isInfix, kind, place,
      isOperand, refers⟩
  · intro target inside
    rcases read.exports target inside with ⟨headed, isFunction, isIndex⟩ | ⟨headed, exported⟩
    · exact .inl ⟨headed, isFunction, isIndex.trans (claimed .function)⟩
    · obtain ⟨word, reference, found, isKind, refers⟩ := exported
      have other : target.kind.space ≠ .type := by
        cases target.kind <;> decide
      rw [names _ other, written _ other] at refers
      exact .inr ⟨headed, word, reference, found, isKind, refers⟩

theorem FieldsRead.indexed {before after : Declarations} {groups : List (List Token)}
    {parts : List (List Field)} (read : FieldsRead before groups parts after)
    (declared : ∀ space, space ≠ .type →
      before.environment.names.get space = writtenNames groups space)
    (unclaimed : ∀ space, before.claimed.get space = 0) (id : Option String) :
    Module.Indexed ⟨id, parts.flatten, after.environment⟩ after groups parts := by
  have names (space : IndexSpace) (other : space ≠ .type) :
      after.environment.names.get space = writtenNames groups space :=
    (read.names space other).trans (declared space other)
  refine ⟨read.isGroup, rfl, read.length_parts, rfl, names, ?_, ?_⟩
  · intro space other
    rw [read.claimed, unclaimed, Environment.size, names space other, writtenNames,
      List.length_map, Nat.zero_add]
  · intro position group part isGroup isPart
    obtain ⟨here, next, earlier, this⟩ := read.at_position isGroup isPart
    refine this.indexed ?_ ?_ names
    · intro space
      rw [earlier.claimed, unclaimed, Nat.zero_add]
    · intro space other
      rw [earlier.names space other, read.names space other]

namespace Builder

variable {declarations final : Declarations} {stream rest : TokenStream}

theorem declareAll_eq_ok (run : declareAll declarations stream = .ok (((), final), rest)) :
    rest = stream ∧ ∃ behind, declareFields (stream.ahead.length + 1) declarations stream =
      .ok (((), final), behind) := by
  obtain ⟨_, _, _, gets, continued⟩ := bind_eq_ok.mp run
  cases gets
  obtain ⟨⟨⟩, _, behind, declared, ended⟩ := bind_eq_ok.mp continued
  cases ended
  exact ⟨rfl, behind, declared⟩

theorem passes_indexed {fuel : Nat} {all : List Field} {between : TokenStream}
    {middle : Declarations} (declared : declareAll .empty stream = .ok (((), middle), between))
    (run : fields fuel middle between = .ok ((all, final), rest)) (id : Option String) :
    ∃ groups parts, stream = rest.prepend groups.flatten ∧
      Module.Indexed ⟨id, all, final.environment⟩ final groups parts := by
  obtain ⟨rfl, behind, first⟩ := declareAll_eq_ok declared
  obtain ⟨groups, parts, shape, read, rfl, stopped⟩ := fields_read run
  obtain ⟨others, same, areGroups, ended, declares⟩ := declareFields_declares first
  -- Both passes see the same groups, since a group can end in one place only.
  obtain ⟨rfl, rfl⟩ := groups_unique read.isGroup areGroups stopped ended (shape.symm.trans same)
  have declares := declares read.isShown
  refine ⟨groups, parts, shape, read.indexed ?_ ?_ id⟩
  · intro space other
    rw [declares.names space other]
    simp [Declarations.empty, Environment.empty, writtenNames, ofSpace, List.filter_map,
      Function.comp_def]
  · intro space
    rw [declares.claimed]
    exact PerSpace.get_constant 0 space

theorem module_read {module : Module}
    (run : Builder.module .empty stream = .ok ((module, final), rest)) :
    ∃ (left word right : Token) (name : List Token) (groups : List (List Token))
      (parts : List (List Field)),
      stream = rest.prepend (left :: word :: name ++ groups.flatten ++ [right]) ∧
      left.kind = .leftParen ∧ word.kind = .keyword .moduleForm ∧ Named name module.id ∧
      right.kind = .rightParen ∧ rest.current.isEnd ∧ module.Indexed final groups parts := by
  simp only [Builder.module, bind_eq_ok, lift_eq_ok] at run
  obtain ⟨⟨⟩, _, _, ⟨opened, rfl⟩, id, _, _, ⟨named, rfl⟩, ⟨⟩, _, _, declared, _, _, _, gets, all,
    _, _, taken, ⟨⟩, _, last, ⟨closed, rfl⟩, token, _, _, ⟨current, rfl⟩, ended⟩ := run
  cases gets
  cases current
  cases isEnd : last.current.isEnd with
  | false =>
      simp only [isEnd] at ended
      cases ended
  | true =>
      simp only [isEnd] at ended
      cases ended
      obtain ⟨left, word, rfl, isLeft, isWord⟩ := openGroup_eq_ok.mp opened
      obtain ⟨name, rfl, isName, -⟩ := identifier?_eq_ok.mp named
      obtain ⟨groups, parts, rfl, indexed⟩ := passes_indexed declared taken id
      obtain ⟨right, rfl, isRight⟩ := rightParen_eq_ok.mp closed
      exact ⟨left, word, right, name, groups, parts, by simp [prepend], isLeft, isWord, isName,
        isRight, isEnd, indexed⟩

end Builder

namespace Module

theorem ofStream_eq_ok_iff_run {stream : TokenStream} {module : Module} :
    ofStream stream = .ok module ↔ ∃ declarations rest,
      (Builder.module.run .empty).run stream = .ok ((module, declarations), rest) := by
  rw [ofStream]
  constructor
  · intro accepted
    cases run : (Builder.module.run .empty).run stream with
    | error error =>
        rw [run] at accepted
        cases accepted
    | ok result =>
        obtain ⟨⟨_, declarations⟩, rest⟩ := result
        rw [run] at accepted
        cases accepted
        exact ⟨declarations, rest, rfl⟩
  · rintro ⟨declarations, rest, run⟩
    rw [run]
    rfl

theorem parse_eq_ok {source : String} {module : Module} :
    parse source = .ok module ↔
      ∃ tokens, tokenise source = .ok tokens ∧ ofTokens tokens = .ok module := by
  rw [parse]
  cases tokenise source <;> simp

end Module

end WatMachine
