import WatMachine.Proofs.Grammar.FieldReaders
import WatMachine.Proofs.Grammar.Indices

/-!
# Modules are read by their grammar

A module is a group of fields.  All of them are declared before the first one
is written, so that a field is written among the declarations that the first
pass and the fields before it have left.  A stream is read as a module exactly
if it starts with one and nothing follows.
-/

namespace WatMachine

open TokenStream Reading Reader WrittenDefinition

/-- A type definition, `( type id? ( func param* result* ) )`. -/
inductive TypeWritten : List Token → Option String → Signature → Prop where
  | mk {left head opening word closing right : Token} {name params results : List Token}
      {label : Option String} {locals : List (List LocalVariable)}
      {types : List (List ValueType)} (opened : left.kind = .leftParen)
      (headed : head.kind = .keyword .typeForm) (named : Named name label)
      (opens : opening.kind = .leftParen) (isFunction : word.kind = .keyword .funcForm)
      (bound : BindingGroups .paramForm params locals) (given : ResultGroups results types)
      (closes : closing.kind = .rightParen) (closed : right.kind = .rightParen) :
      TypeWritten
        (left :: head :: name ++ (opening :: word :: params ++ results ++ [closing]) ++ [right])
        label ⟨locals.flatten.map (·.type), types.flatten⟩

/-- What the first pass makes of a field. -/
inductive FieldDeclared (before : Declarations) : List Token → Declarations → Prop where
  | type {group : List Token} {name : Option String} {signature : Signature}
      (written : TypeWritten group name signature) :
      FieldDeclared before group
        { before.declareType name signature with
          pendingTypes := before.pendingTypes ++ [⟨before.environment.size .type, signature⟩] }
  | other {group : List Token} (headed : headWord? group ≠ some .typeForm) :
      FieldDeclared before group
        (match ofGroup? group with
          | some written => before.declare written.space written.name
          | none => before)

inductive FieldsDeclared : Declarations → List (List Token) → Declarations → Prop where
  | nil {declarations : Declarations} : FieldsDeclared declarations [] declarations
  | cons {before middle after : Declarations} {group : List Token} {groups : List (List Token)}
      (first : FieldDeclared before group middle) (rest : FieldsDeclared middle groups after) :
      FieldsDeclared before (group :: groups) after

inductive FieldsWritten :
    Declarations → List (List Reading) → List (List Field) → Declarations → Prop where
  | nil {declarations : Declarations} : FieldsWritten declarations [] [] declarations
  | cons {before middle after : Declarations} {readings : List Reading} {part : List Field}
      {groups : List (List Reading)} {parts : List (List Field)}
      (first : FieldWritten before readings part middle)
      (rest : FieldsWritten middle groups parts after) :
      FieldsWritten before (readings :: groups) (part :: parts) after

/-- A module, `( module id? field* )`. -/
inductive ModuleWritten : List Reading → Module → Prop where
  | mk {left word right : Token} {name : List Token} {label : Option String}
      {groups : List (List Reading)} {parts : List (List Field)} {middle final : Declarations}
      (opened : left.kind = .leftParen) (headed : word.kind = .keyword .moduleForm)
      (named : Named name label) (declared : FieldsDeclared .empty (groups.map tokens) middle)
      (written : FieldsWritten middle groups parts final) (closed : right.kind = .rightParen) :
      ModuleWritten (others (left :: word :: name) ++ groups.flatten ++ others [right])
        ⟨label, parts.flatten, final.environment⟩

theorem TypeWritten.isGroup {group : List Token} {name : Option String} {signature : Signature}
    (written : TypeWritten group name signature) : IsGroup group := by
  obtain ⟨opened, headed, named, opens, isFunction, bound, given, closes, closed⟩ := written
  have function := (bound.balanced.append given.balanced).isGroup opens isFunction closes
  have whole := (named.balanced.append function.balanced).isGroup opened headed closed
  simpa using whole

theorem TypeWritten.headed {group : List Token} {name : Option String} {signature : Signature}
    (written : TypeWritten group name signature) : headWord? group = some .typeForm := by
  obtain ⟨-, headed, -, -, -, -, -, -, -⟩ := written
  simp [headWord?, headed, TokenKind.keyword?]

/-- Fields that are no types are declared alike if they write the same
definition. -/
theorem FieldDeclared.congr {before after : Declarations} {group other : List Token}
    (declared : FieldDeclared before group after) (headed : headWord? group ≠ some .typeForm)
    (same : headWord? other = headWord? group) (written : ofGroup? other = ofGroup? group) :
    FieldDeclared before other after := by
  cases declared with
  | type isType => exact absurd isType.headed headed
  | other headed =>
      rw [← written]
      rw [← same] at headed
      exact .other headed

/-- Reading a field that is written takes its group. -/
theorem FieldWritten.read {before after : Declarations} {readings : List Reading}
    {part : List Field} (written : FieldWritten before readings part after) :
    FieldRead before (tokens readings) part after := by
  obtain ⟨group, shape, read⟩ := Builder.field_read (Builder.field_complete written ⟨[], .origin⟩)
  rwa [prepend_inj.mp shape]

namespace FieldsWritten

variable {before after : Declarations} {groups : List (List Reading)} {parts : List (List Field)}

theorem read (written : FieldsWritten before groups parts after) :
    FieldsRead before (groups.map tokens) parts after := by
  induction written with
  | nil => exact .nil
  | cons first _ ih => exact .cons first.read ih

end FieldsWritten

namespace Builder

variable {declarations final : Declarations} {stream rest : TokenStream}

section Types

theorem typeDefinition_sound {definition : TypeDefinition}
    (run : typeDefinition declarations stream = .ok ((definition, final), rest)) :
    ∃ group name signature, stream = rest.prepend group ∧ TypeWritten group name signature ∧
      definition = ⟨declarations.environment.size .type, signature⟩ ∧
      final = declarations.declareType name signature := by
  simp only [typeDefinition, bind_eq_ok, lift_eq_ok] at run
  obtain ⟨⟨⟩, _, _, ⟨opened, rfl⟩, name, _, _, ⟨named, rfl⟩, ⟨⟩, _, _, ⟨opens, rfl⟩, params, _, _,
    ⟨bound, rfl⟩, results, _, _, ⟨gives, rfl⟩, ⟨⟩, _, _, ⟨closes, rfl⟩, ⟨⟩, _, _, ⟨closed, rfl⟩,
    index, _, _, declares, ended⟩ := run
  cases declares
  cases ended
  obtain ⟨left, head, rfl, isLeft, isHead⟩ := openGroup_eq_ok.mp opened
  obtain ⟨front, rfl, isName, -⟩ := identifier?_eq_ok.mp named
  obtain ⟨opening, word, rfl, isOpening, isWord⟩ := openGroup_eq_ok.mp opens
  obtain ⟨groups, rfl, _, isBound, rfl⟩ := (bindings_reads _).sound bound
  obtain ⟨more, rfl, _, areResults, rfl⟩ := results_reads.sound gives
  obtain ⟨closing, rfl, isClosing⟩ := rightParen_eq_ok.mp closes
  obtain ⟨right, rfl, isRight⟩ := rightParen_eq_ok.mp closed
  refine ⟨_, name, _, ?_, .mk isLeft isHead isName isOpening isWord isBound areResults isClosing
    isRight, rfl, rfl⟩
  simp [prepend]

theorem typeDefinition_complete {group : List Token} {name : Option String}
    {signature : Signature} (written : TypeWritten group name signature) :
    typeDefinition declarations (rest.prepend group) =
      .ok ((⟨declarations.environment.size .type, signature⟩,
        declarations.declareType name signature), rest) := by
  obtain @⟨left, head, opening, word, closing, right, front, params, results, _, locals, types,
    opened, headed, named, opens, isFunction, bound, given, closes, closed⟩ := written
  let atEnd := (rest.prepend [right]).prepend [closing]
  let atFunction := (atEnd.prepend (params ++ results)).prepend [opening, word]
  have ended : Beyond [.paramForm, .resultForm] atEnd := .of_rightParen closes
  obtain ⟨taken, gives⟩ := signature_complete bound given ended
  have unnamed : atFunction.current.kind.identifier? = none := by
    rw [current_prepend_cons, opens]
    rfl
  have whole : rest.prepend (left :: head :: front ++
      (opening :: word :: params ++ results ++ [closing]) ++ [right]) =
      (atFunction.prepend front).prepend [left, head] := by
    simp [atFunction, atEnd, prepend]
  rw [whole]
  simp only [typeDefinition, bind_eq_ok, lift_eq_ok]
  exact ⟨(), _, _, ⟨openGroup_eq_ok.mpr ⟨left, head, rfl, opened, headed⟩, rfl⟩,
    name, _, _, ⟨identifier?_eq_ok.mpr ⟨front, rfl, named, fun _ => unnamed⟩, rfl⟩,
    (), _, _, ⟨openGroup_eq_ok.mpr ⟨opening, word, rfl, opens, isFunction⟩, rfl⟩,
    _, _, _, ⟨taken, rfl⟩, _, _, _, ⟨gives, rfl⟩,
    (), _, _, ⟨rightParen_eq_ok.mpr ⟨closing, rfl, closes⟩, rfl⟩,
    (), _, _, ⟨rightParen_eq_ok.mpr ⟨right, rfl, closed⟩, rfl⟩, _, _, _, rfl, rfl⟩

end Types

section Passes

theorem atGroup_typeForm_iff {group : List Token} (isGroup : IsGroup group) :
    (rest.prepend group).atGroup .typeForm = true ↔ headWord? group = some .typeForm := by
  have shown := isGroup.nth_one rest
  obtain ⟨left, inner, rfl, opened⟩ := isGroup.first_token
  rw [atGroup_iff, ← shown, TokenKind.keyword?_eq_some]
  exact and_iff_right opened

/-- The first pass declares a field as its grammar says, if looking ahead shows
what the field writes. -/
theorem declareField_sound
    (run : declareField declarations stream = .ok (((), final), rest)) :
    ∃ group, stream = rest.prepend group ∧ IsGroup group ∧
      (IsShown group → FieldDeclared declarations group final) := by
  obtain ⟨_, _, _, gets, continued⟩ := bind_eq_ok.mp run
  cases gets
  cases isType : stream.atGroup .typeForm with
  | true =>
      simp only [isType, if_true, bind_eq_ok] at continued
      obtain ⟨definition, _, _, taken, ended⟩ := continued
      cases ended
      obtain ⟨group, name, signature, rfl, written, rfl, rfl⟩ := typeDefinition_sound taken
      exact ⟨group, rfl, written.isGroup, fun _ => .type written⟩
  | false =>
      have other {group : List Token} (isGroup : IsGroup group)
          (shape : stream = rest.prepend group) : headWord? group ≠ some .typeForm := by
        rw [ne_eq, ← atGroup_typeForm_iff isGroup, ← shape, isType]
        exact Bool.false_ne_true
      cases defines : stream.definition? with
      | none =>
          simp only [isType, Bool.false_eq_true, if_false, defines, lift_eq_ok] at continued
          obtain ⟨skipped, rfl⟩ := continued
          obtain ⟨group, rfl, isGroup⟩ := skipGroup_isGroup skipped
          refine ⟨group, rfl, isGroup, fun isShown => ?_⟩
          have declared := @FieldDeclared.other final _ (other isGroup rfl)
          rw [isShown rest, Option.map_eq_none_iff] at defines
          rwa [defines] at declared
      | some definition =>
          simp only [isType, Bool.false_eq_true, if_false, defines, bind_eq_ok, lift_eq_ok]
            at continued
          obtain ⟨⟨⟩, _, _, declares, skipped, rfl⟩ := continued
          cases declares
          obtain ⟨group, rfl, isGroup⟩ := skipGroup_isGroup skipped
          refine ⟨group, rfl, isGroup, fun isShown => ?_⟩
          have declared := @FieldDeclared.other declarations _ (other isGroup rfl)
          rw [isShown rest, Option.map_eq_some_iff] at defines
          obtain ⟨written, found, rfl⟩ := defines
          rwa [found] at declared

theorem declareField_complete {group : List Token}
    (declared : FieldDeclared declarations group final) (isGroup : IsGroup group)
    (isShown : IsShown group) :
    declareField declarations (rest.prepend group) = .ok (((), final), rest) := by
  refine bind_eq_ok.mpr ⟨_, _, _, rfl, ?_⟩
  cases declared with
  | type written =>
      simp only [(atGroup_typeForm_iff isGroup).mpr written.headed, if_true]
      exact bind_eq_ok.mpr ⟨_, _, _, typeDefinition_complete written, rfl⟩
  | other headed =>
      have isType : (rest.prepend group).atGroup .typeForm = false := by
        rw [← Bool.not_eq_true, atGroup_typeForm_iff isGroup]
        exact headed
      have skips := skipGroup_of_isGroup isGroup rest
      simp only [isType, isShown rest]
      cases found : ofGroup? group with
      | none => exact lift_eq_ok.mpr ⟨skips, rfl⟩
      | some written => exact bind_eq_ok.mpr ⟨_, _, _, rfl, lift_eq_ok.mpr ⟨skips, rfl⟩⟩

theorem declareFields_sound {fuel : Nat}
    (run : declareFields fuel declarations stream = .ok (((), final), rest)) :
    ∃ groups : List (List Token), stream = rest.prepend groups.flatten ∧
      (∀ group ∈ groups, IsGroup group) ∧ rest.atLeftParen = false ∧
      ((∀ group ∈ groups, IsShown group) → FieldsDeclared declarations groups final) := by
  induction fuel generalizing declarations stream with
  | zero => cases run
  | succ fuel ih =>
      obtain ⟨_, _, _, gets, continued⟩ := bind_eq_ok.mp run
      cases gets
      cases shown : stream.atLeftParen with
      | false =>
          simp only [shown] at continued
          cases continued
          exact ⟨[], rfl, by simp, shown, fun _ => .nil⟩
      | true =>
          simp only [shown, if_true] at continued
          obtain ⟨⟨⟩, _, _, taken, repeated⟩ := bind_eq_ok.mp continued
          obtain ⟨group, rfl, isGroup, first⟩ := declareField_sound taken
          obtain ⟨groups, rfl, areGroups, stopped, more⟩ := ih repeated
          refine ⟨group :: groups, by simp [prepend],
            List.forall_mem_cons.mpr ⟨isGroup, areGroups⟩, stopped, fun areShown => ?_⟩
          obtain ⟨isShown, moreShown⟩ := List.forall_mem_cons.mp areShown
          exact .cons (first isShown) (more moreShown)

theorem atLeftParen_of_isGroup {group : List Token} (isGroup : IsGroup group) :
    (rest.prepend group).atLeftParen = true := by
  obtain ⟨left, tail, rfl, opened⟩ := isGroup.first_token
  simp [atLeftParen, opened]

theorem declareFields_complete {fuel : Nat} {groups : List (List Token)}
    (declared : FieldsDeclared declarations groups final)
    (areGroups : ∀ group ∈ groups, IsGroup group) (areShown : ∀ group ∈ groups, IsShown group)
    (stopped : rest.atLeftParen = false) (enough : groups.length < fuel) :
    declareFields fuel declarations (rest.prepend groups.flatten) = .ok (((), final), rest) := by
  induction declared generalizing fuel with
  | nil =>
      obtain ⟨fuel, rfl⟩ : ∃ less, fuel = less + 1 := Nat.exists_eq_add_of_le' enough
      refine bind_eq_ok.mpr ⟨_, _, _, rfl, ?_⟩
      simp [stopped]
  | @cons _ _ _ group groups first _ ih =>
      rw [List.length_cons] at enough
      obtain ⟨fuel, rfl⟩ : ∃ less, fuel = less + 1 := Nat.exists_eq_add_of_le' (by omega)
      obtain ⟨isGroup, moreGroups⟩ := List.forall_mem_cons.mp areGroups
      obtain ⟨isShown, moreShown⟩ := List.forall_mem_cons.mp areShown
      rw [List.flatten_cons, prepend_append]
      refine bind_eq_ok.mpr ⟨_, _, _, rfl, ?_⟩
      simp only [atLeftParen_of_isGroup isGroup, if_true]
      exact bind_eq_ok.mpr ⟨_, _, _, declareField_complete first isGroup isShown,
        ih moreGroups moreShown (by omega)⟩

theorem fields_sound {fuel : Nat} {all : List Field}
    (run : fields fuel declarations stream = .ok ((all, final), rest)) :
    ∃ groups parts, stream = rest.prepend (tokens groups.flatten) ∧
      FieldsWritten declarations groups parts final ∧ all = parts.flatten ∧
      rest.atLeftParen = false := by
  induction fuel generalizing declarations stream all with
  | zero => cases run
  | succ fuel ih =>
      obtain ⟨_, _, _, gets, continued⟩ := bind_eq_ok.mp run
      cases gets
      cases shown : stream.atLeftParen with
      | false =>
          simp only [shown] at continued
          cases continued
          exact ⟨[], [], rfl, .nil, rfl, shown⟩
      | true =>
          simp only [shown, if_true] at continued
          obtain ⟨part, _, _, taken, following⟩ := bind_eq_ok.mp continued
          obtain ⟨more, _, _, repeated, ended⟩ := bind_eq_ok.mp following
          cases ended
          obtain ⟨readings, rfl, first⟩ := field_sound taken
          obtain ⟨groups, parts, rfl, written, rfl, stopped⟩ := ih repeated
          exact ⟨readings :: groups, part :: parts, by simp [prepend], .cons first written, rfl,
            stopped⟩

theorem fields_complete {fuel : Nat} {groups : List (List Reading)} {parts : List (List Field)}
    (written : FieldsWritten declarations groups parts final) (stopped : rest.atLeftParen = false)
    (enough : groups.length < fuel) :
    fields fuel declarations (rest.prepend (tokens groups.flatten)) =
      .ok ((parts.flatten, final), rest) := by
  induction written generalizing fuel with
  | nil =>
      obtain ⟨fuel, rfl⟩ : ∃ less, fuel = less + 1 := Nat.exists_eq_add_of_le' enough
      refine bind_eq_ok.mpr ⟨_, _, _, rfl, ?_⟩
      simp [stopped]
  | @cons _ _ _ readings part groups parts first _ ih =>
      rw [List.length_cons] at enough
      obtain ⟨fuel, rfl⟩ : ∃ less, fuel = less + 1 := Nat.exists_eq_add_of_le' (by omega)
      rw [List.flatten_cons, tokens_append, prepend_append]
      refine bind_eq_ok.mpr ⟨_, _, _, rfl, ?_⟩
      simp only [atLeftParen_of_isGroup first.read.isGroup, if_true]
      exact bind_eq_ok.mpr ⟨_, _, _, field_complete first _, bind_eq_ok.mpr
        ⟨_, _, _, ih (by omega), rfl⟩⟩

end Passes

theorem length_le_flatten {groups : List (List Token)}
    (areGroups : ∀ group ∈ groups, IsGroup group) : groups.length ≤ groups.flatten.length := by
  induction groups with
  | nil => simp
  | cons group groups ih =>
      obtain ⟨isGroup, moreGroups⟩ := List.forall_mem_cons.mp areGroups
      obtain ⟨left, tail, rfl, -⟩ := isGroup.first_token
      have rest := ih moreGroups
      rw [List.flatten_cons, List.length_append, List.length_cons, List.length_cons]
      omega

theorem declareAll_complete {groups : List (List Token)}
    (declared : FieldsDeclared declarations groups final)
    (areGroups : ∀ group ∈ groups, IsGroup group) (areShown : ∀ group ∈ groups, IsShown group)
    (stopped : rest.atLeftParen = false) :
    declareAll declarations (rest.prepend groups.flatten) =
      .ok (((), final), rest.prepend groups.flatten) := by
  have counted := length_le_flatten areGroups
  have enough : groups.length < (rest.prepend groups.flatten).ahead.length + 1 := by
    rw [ahead_prepend, List.length_append]
    omega
  have passes := declareFields_complete declared areGroups areShown stopped enough
  exact bind_eq_ok.mpr ⟨_, _, _, rfl, bind_eq_ok.mpr ⟨_, _, _, passes, rfl⟩⟩

theorem module_sound {module : Module}
    (run : Builder.module .empty stream = .ok ((module, final), rest)) :
    ∃ readings, stream = rest.prepend (tokens readings) ∧ ModuleWritten readings module ∧
      rest.current.isEnd = true := by
  simp only [Builder.module, bind_eq_ok, lift_eq_ok] at run
  obtain ⟨⟨⟩, _, _, ⟨opened, rfl⟩, id, _, _, ⟨named, rfl⟩, ⟨⟩, _, _, declared, _, _, _, gets, all,
    _, _, taken, ⟨⟩, _, last, ⟨closed, rfl⟩, token, _, _, ⟨current, rfl⟩, ended⟩ := run
  cases gets
  cases current
  cases isEnd : last.current.isEnd with
  | false =>
      simp only [isEnd] at ended
      cases ended
  | true =>
      simp only [isEnd] at ended
      cases ended
      obtain ⟨left, word, rfl, isLeft, isWord⟩ := openGroup_eq_ok.mp opened
      obtain ⟨name, rfl, isName, -⟩ := identifier?_eq_ok.mp named
      obtain ⟨rfl, behind, first⟩ := declareAll_eq_ok declared
      obtain ⟨groups, parts, rfl, written, rfl, stopped⟩ := fields_sound taken
      obtain ⟨right, rfl, isRight⟩ := rightParen_eq_ok.mp closed
      obtain ⟨seen, same, areGroups, ended, declares⟩ := declareFields_sound first
      -- Both passes see the same groups, since a group can end in one place only.
      rw [tokens_flatten] at same
      obtain ⟨rfl, rfl⟩ := groups_unique written.read.isGroup areGroups stopped ended same
      refine ⟨_, ?_, .mk isLeft isWord isName (declares written.read.isShown) written isRight,
        isEnd⟩
      simp [prepend]

theorem module_complete {readings : List Reading} {module : Module}
    (written : ModuleWritten readings module) (ended : rest.current.isEnd = true) :
    ∃ final, Builder.module .empty (rest.prepend (tokens readings)) =
      .ok ((module, final), rest) := by
  obtain @⟨left, word, right, name, label, groups, parts, middle, final, opened, headed, named,
    declared, fields, closed⟩ := written
  let atEnd := rest.prepend [right]
  let atFields := atEnd.prepend (tokens groups.flatten)
  have stopped : atEnd.atLeftParen = false := by simp [atEnd, atLeftParen, closed]
  have unnamed : atFields.current.kind.identifier? = none := by
    cases fields with
    | nil =>
        change right.kind.identifier? = none
        rw [closed]
        rfl
    | cons first more =>
        obtain ⟨left, inner, shape, opened⟩ := first.read.isGroup.first_token
        simp [atFields, shape, opened, TokenKind.identifier?]
  have declares : declareAll .empty atFields = .ok (((), middle), atFields) := by
    simp only [atFields, tokens_flatten]
    exact declareAll_complete declared fields.read.isGroup fields.read.isShown stopped
  have enough : groups.length < atFields.ahead.length + 1 := by
    have counted := length_le_flatten fields.read.isGroup
    simp only [atFields, ahead_prepend, List.length_append, tokens_flatten]
    rw [List.length_map] at counted
    omega
  have writes : Builder.fields (atFields.ahead.length + 1) middle atFields =
      .ok ((parts.flatten, final), atEnd) := fields_complete fields stopped enough
  have closes : rightParen atEnd = .ok ((), rest) := rightParen_eq_ok.mpr ⟨right, rfl, closed⟩
  have whole : rest.prepend (tokens (others (left :: word :: name) ++ groups.flatten ++
      others [right])) = (atFields.prepend name).prepend [left, word] := by
    simp [atFields, atEnd, prepend]
  refine ⟨final, ?_⟩
  rw [whole]
  simp only [Builder.module, bind_eq_ok, lift_eq_ok]
  refine ⟨(), .empty, atFields.prepend name,
    ⟨openGroup_eq_ok.mpr ⟨left, word, rfl, opened, headed⟩, rfl⟩, label, .empty, atFields,
    ⟨identifier?_eq_ok.mpr ⟨name, rfl, named, fun _ => unnamed⟩, rfl⟩, (), middle, atFields,
    declares, atFields, middle, atFields, rfl, parts.flatten, final, atEnd, writes, (), final, rest,
    ⟨closes, rfl⟩, rest.current, final, rest, ⟨rfl, rfl⟩, ?_⟩
  rw [if_pos ended]
  rfl

end Builder

namespace Module

/-- A stream is read as a module exactly if it starts with one and the input
ends behind it. -/
theorem ofStream_eq_ok {stream : TokenStream} {module : Module} :
    ofStream stream = .ok module ↔
      ∃ (readings : List Reading) (rest : TokenStream), stream = rest.prepend (tokens readings) ∧
        ModuleWritten readings module ∧ rest.current.isEnd = true := by
  rw [ofStream_eq_ok_iff_run]
  constructor
  · rintro ⟨declarations, rest, run⟩
    obtain ⟨readings, shape, written, ended⟩ := Builder.module_sound run
    exact ⟨readings, rest, shape, written, ended⟩
  · rintro ⟨readings, rest, rfl, written, ended⟩
    obtain ⟨final, run⟩ := Builder.module_complete written ended
    exact ⟨final, rest, run⟩

end Module

end WatMachine
