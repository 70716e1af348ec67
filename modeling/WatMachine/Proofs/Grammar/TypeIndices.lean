import WatMachine.Proofs.Grammar.BlamedModules
import WatMachine.Proofs.Grammar.EndOfInput

/-!
# Type indices

The types that a module defines have the first indices, in the order of their
definitions, wherever these stand among the other fields.  The functions that
refer to no type follow, in the order in which they are written.  A reference
can only mean a type that is known when it is read, which is a definition or
the type of a function further ahead.
-/

namespace WatMachine

open TokenStream Reading Declarations

/-- The signatures that are declared for functions without a reference. -/
def inlineSignatures (uses : List (Option WrittenType)) : List Signature :=
  uses.filterMap fun use => use.bind WrittenType.inline?

theorem inlineSignatures_cons (use : Option WrittenType) (uses : List (Option WrittenType)) :
    inlineSignatures (use :: uses) =
      (use.bind WrittenType.inline?).toList ++ inlineSignatures uses := by
  cases inline : use.bind WrittenType.inline? <;> simp [inlineSignatures, inline]

theorem inlineSignatures_append (uses others : List (Option WrittenType)) :
    inlineSignatures (uses ++ others) = inlineSignatures uses ++ inlineSignatures others :=
  List.filterMap_append

/-- What fields do to the table of types, one after the other. -/
inductive FieldsTyped : Declarations → List (List Token) → List (List Field) →
    List (Option WrittenType) → Declarations → Prop where
  | nil {declarations : Declarations} : FieldsTyped declarations [] [] [] declarations
  | cons {before middle after : Declarations} {group : List Token} {part : List Field}
      {use : Option WrittenType} {groups : List (List Token)} {parts : List (List Field)}
      {uses : List (Option WrittenType)} (first : FieldTypes before group part use middle)
      (others : FieldsTyped middle groups parts uses after) :
      FieldsTyped before (group :: groups) (part :: parts) (use :: uses) after

theorem FieldsWritten.types {before after : Declarations} {groups : List (List Reading)}
    {parts : List (List Field)} (written : FieldsWritten before groups parts after)
    (signed : before.Signed) :
    ∃ uses, FieldsTyped before (groups.map tokens) parts uses after := by
  induction written with
  | nil => exact ⟨[], .nil⟩
  | cons first _ ih =>
      obtain ⟨use, types⟩ := first.types signed
      obtain ⟨uses, others⟩ := ih (types.grown.signed signed)
      exact ⟨use :: uses, .cons types others⟩

namespace FieldsTyped

variable {before after : Declarations} {groups : List (List Token)} {parts : List (List Field)}
  {uses : List (Option WrittenType)}

theorem length_parts (typed : FieldsTyped before groups parts uses after) :
    parts.length = groups.length := by
  induction typed with
  | nil => rfl
  | cons _ _ ih => rw [List.length_cons, List.length_cons, ih]

theorem functions (typed : FieldsTyped before groups parts uses after) :
    List.Forall₂ (fun group use => ∀ written, use = some written ↔ FunctionTyped group written)
      groups uses := by
  induction typed with
  | nil => exact .nil
  | cons first _ ih => exact .cons first.use_iff ih

theorem signatures (typed : FieldsTyped before groups parts uses after) :
    after.signatures = before.signatures ++ inlineSignatures uses := by
  induction typed with
  | nil => exact (List.append_nil _).symm
  | cons first _ ih =>
      rw [ih, first.grown.signatures, List.append_assoc, inlineSignatures_cons]

theorem signed (typed : FieldsTyped before groups parts uses after) (start : before.Signed) :
    after.Signed := by
  induction typed with
  | nil => exact start
  | cons first _ ih => exact ih (first.grown.signed start)

/-- What a reference to a type means is the same in front of every field. -/
theorem refersTo (typed : FieldsTyped before groups parts uses after) {token : Token}
    {index : Nat} :
    RefersTo (after.environment.names.get .type) token index ↔
      RefersTo (before.environment.names.get .type) token index := by
  induction typed with
  | nil => rfl
  | cons first _ ih => rw [ih, first.grown.refersTo]

/-- The types that are pending are handed out in their order, one to each
definition. -/
theorem pending (typed : FieldsTyped before groups parts uses after) :
    after.pendingTypes = before.pendingTypes.drop (groups.countP definesType) := by
  induction typed with
  | nil => rfl
  | cons first _ ih =>
      rw [ih, countP_definesType_cons, ← first.defined, first.pending, ← List.drop_drop,
        List.drop_left]

/-- Every field takes its type from the table that the fields before it have
left. -/
theorem at_position (typed : FieldsTyped before groups parts uses after) {position : Nat}
    {group : List Token} (isGroup : groups[position]? = some group) :
    ∃ part use here next, parts[position]? = some part ∧ uses[position]? = some use ∧
      FieldsTyped before (groups.take position) (parts.take position) (uses.take position) here ∧
      FieldTypes here group part use next := by
  induction typed generalizing position with
  | nil => simp at isGroup
  | cons first _ ih =>
      cases position with
      | zero =>
          cases isGroup
          exact ⟨_, _, _, _, rfl, rfl, .nil, first⟩
      | succ position =>
          obtain ⟨part, use, here, next, isPart, isUse, earlier, types⟩ := ih isGroup
          exact ⟨part, use, here, next, isPart, isUse, .cons first earlier, types⟩

end FieldsTyped

section FirstPass

/-- Type definitions with the indices from a given one on. -/
def definitionsFrom (start : Nat) (signatures : List Signature) : List TypeDefinition :=
  signatures.mapIdx fun position signature => ⟨start + position, signature⟩

theorem definitionsFrom_cons (start : Nat) (signature : Signature) (signatures : List Signature) :
    definitionsFrom start (signature :: signatures) =
      ⟨start, signature⟩ :: definitionsFrom (start + 1) signatures := by
  simp only [definitionsFrom, List.mapIdx_cons, Nat.add_zero, Nat.add_right_comm, Nat.add_assoc]

theorem space_ne_type_of_ofGroup? {group : List Token} {written : WrittenDefinition}
    (found : WrittenDefinition.ofGroup? group = some written) : written.space ≠ .type := by
  unfold WrittenDefinition.ofGroup? WrittenDefinition.ofKinds? at found
  split at found
  · obtain ⟨kind, -, rfl⟩ := Option.map_eq_some_iff.mp found
    cases kind <;> nofun
  · obtain ⟨space, defines, rfl⟩ := Option.map_eq_some_iff.mp found
    exact IndexSpace.ne_type_of_ofKeyword? defines
  · cases found

/-- The first pass declares the types that are defined, in their order. -/
theorem FieldsDeclared.types {before after : Declarations} {groups : List (List Token)}
    (declared : FieldsDeclared before groups after) (signed : before.Signed) :
    ∃ signatures, List.Forall₂ (fun group signature => ∃ name, TypeWritten group name signature)
        (groups.filter definesType) signatures ∧
      after.signatures = before.signatures ++ signatures ∧ after.Signed ∧
      after.pendingTypes =
        before.pendingTypes ++ definitionsFrom before.signatures.length signatures := by
  induction declared with
  | nil => exact ⟨[], .nil, by simp, signed, by simp [definitionsFrom]⟩
  | @cons before _ _ group groups first _ ih =>
      cases first with
      | @type name signature written =>
          have isType : definesType group = true := beq_iff_eq.mpr written.headed
          obtain ⟨signatures, each, table, stillSigned, pending⟩ :=
            ih (signed.declareType name signature)
          refine ⟨signature :: signatures, ?_, ?_, stillSigned, ?_⟩
          · rw [List.filter_cons_of_pos isType]
            exact .cons ⟨name, written⟩ each
          · rw [table]
            exact List.append_assoc _ _ _
          · have size : before.environment.size .type = before.signatures.length := signed
            have next : (before.declareType name signature).signatures.length =
                before.signatures.length + 1 := by
              simp [declareType]
            rw [pending, definitionsFrom_cons, size]
            dsimp only
            rw [next, List.append_assoc, List.singleton_append]
      | other headed =>
          have noType : definesType group = false := beq_eq_false_iff_ne.mpr headed
          rw [List.filter_cons_of_neg (by simp [noType])]
          cases found : WrittenDefinition.ofGroup? group with
          | none =>
              simp only [found] at ih
              exact ih signed
          | some written =>
              simp only [found] at ih
              exact ih (signed.declare (space_ne_type_of_ofGroup? found) _)

end FirstPass

/-- The groups of the fields that a module has, if tokens spell one. -/
structure FieldGroups (all : List Token) (groups : List (List Token)) : Prop where
  shape : ∃ (left word right : Token) (name : List Token) (label : Option String),
    all.takeWhile (!·.isEnd) = left :: word :: name ++ groups.flatten ++ [right] ∧
      left.kind = .leftParen ∧ word.kind = .keyword .moduleForm ∧ Named name label ∧
      right.kind = .rightParen
  areGroups : ∀ group ∈ groups, IsGroup group

/-- How the types of a module are numbered.  Each group of a field makes its
part of the module.  The signatures of the type definitions are given in their
order, and for each group that is a function or imports one, how its type is
written. -/
structure Module.TypesNumbered (module : Module) (groups : List (List Token))
    (parts : List (List Field)) (defined : List Signature) (uses : List (Option WrittenType)) :
    Prop where
  fields : module.fields = parts.flatten
  length_parts : parts.length = groups.length
  definitions : List.Forall₂ (fun group signature => ∃ name, TypeWritten group name signature)
    (groups.filter definesType) defined
  functions : List.Forall₂
    (fun group use => ∀ written, use = some written ↔ FunctionTyped group written) groups uses
  size : module.environment.size .type =
    groups.countP definesType + (inlineSignatures uses).length
  /-- A type definition has the number of those before it for an index. -/
  types : ∀ (position : Nat) group part, groups[position]? = some group →
    parts[position]? = some part →
    if definesType group then
      ∃ name signature, TypeWritten group name signature ∧
        part.filterMap Field.type? = [⟨(groups.take position).countP definesType, signature⟩]
    else part.filterMap Field.type? = []
  /-- A function takes its type from the definitions and from the functions
  before it. -/
  taken : ∀ (position : Nat) use part, uses[position]? = some use →
    parts[position]? = some part →
    UsesTaken (module.environment.names.get .type)
      (defined ++ inlineSignatures (uses.take position)) use (part.filterMap Field.typeUse?)
  /-- A function without a reference has the next index behind the definitions
  and the functions before it. -/
  inline : ∀ (position : Nat) written part typeIndex frame,
    uses[position]? = some (some written) → written.reference = none →
    parts[position]? = some part → (typeIndex, frame) ∈ part.filterMap Field.typeUse? →
    typeIndex = groups.countP definesType + (inlineSignatures (uses.take position)).length
  bounded : ∀ field ∈ module.fields, ∀ typeIndex frame,
    field.typeUse? = some (typeIndex, frame) →
      typeIndex < module.environment.size .type ∧ frame.Fresh

section Positions

theorem split_at {α : Type} {all : List α} {position : Nat} {here : α}
    (found : all[position]? = some here) :
    all = all.take position ++ here :: all.drop (position + 1) := by
  obtain ⟨inside, rfl⟩ := List.getElem?_eq_some_iff.mp found
  rw [← List.drop_eq_getElem_cons inside, List.take_append_drop]

/-- A definition is the one of its number among the definitions. -/
theorem getElem?_filter_countP {groups : List (List Token)} {position : Nat} {group : List Token}
    (found : groups[position]? = some group) (isType : definesType group = true) :
    (groups.filter definesType)[(groups.take position).countP definesType]? = some group := by
  have split := congrArg (List.filter definesType) (split_at found)
  rw [List.filter_append, List.filter_cons_of_pos isType] at split
  rw [split, List.countP_eq_length_filter]
  simp

theorem inlineSignatures_split {uses : List (Option WrittenType)} {position : Nat}
    {use : Option WrittenType} (found : uses[position]? = some use) :
    (inlineSignatures (uses.take position)).length +
        (use.bind WrittenType.inline?).toList.length ≤ (inlineSignatures uses).length := by
  have split := congrArg inlineSignatures (split_at found)
  rw [inlineSignatures_append, inlineSignatures_cons] at split
  rw [split, List.length_append, List.length_append]
  omega

/-- A type that is taken is in the table, or added to it. -/
theorem TypeTaken.index_lt {names : List (Option String)} {table : List Signature}
    {written : WrittenType} {index : Nat} {params : List LocalVariable}
    {results : List ValueType} (taken : TypeTaken names table written index params results) :
    index < table.length + written.inline?.toList.length := by
  cases taken with
  | inline => exact Nat.lt_succ_self _
  | repeated _ known _ => exact known
  | supplied _ found => exact (List.getElem?_eq_some_iff.mp found).1

theorem TypeTaken.index_of_inline {names : List (Option String)} {table : List Signature}
    {written : WrittenType} {index : Nat} {params : List LocalVariable}
    {results : List ValueType} (taken : TypeTaken names table written index params results)
    (missing : written.reference = none) : index = table.length := by
  cases taken with
  | inline => rfl
  | repeated | supplied => cases missing

end Positions

namespace FieldsTyped

variable {before after : Declarations} {groups : List (List Token)} {parts : List (List Field)}
  {defined : List Signature} {uses : List (Option WrittenType)}

/-- A definition is handed out where it stands. -/
theorem types_at (typed : FieldsTyped before groups parts uses after)
    (definitions : List.Forall₂ (fun group signature => ∃ name, TypeWritten group name signature)
      (groups.filter definesType) defined)
    (pending : before.pendingTypes = definitionsFrom 0 defined) {position : Nat}
    {group : List Token} {part : List Field} (isGroup : groups[position]? = some group)
    (isPart : parts[position]? = some part) :
    if definesType group then
      ∃ name signature, TypeWritten group name signature ∧
        part.filterMap Field.type? = [⟨(groups.take position).countP definesType, signature⟩]
    else part.filterMap Field.type? = [] := by
  obtain ⟨_, use, here, next, alsoPart, -, earlier, types⟩ := typed.at_position isGroup
  cases isPart.symm.trans alsoPart
  have count := types.defined
  split
  · rename_i isType
    obtain ⟨inside, isDefinition⟩ :=
      List.getElem?_eq_some_iff.mp (getElem?_filter_countP isGroup isType)
    have within := inside
    rw [definitions.length_eq] at within
    obtain ⟨name, written⟩ := definitions.get inside within
    rw [List.get_eq_getElem, List.get_eq_getElem, isDefinition] at written
    refine ⟨name, _, written, ?_⟩
    have first : here.pendingTypes[0]? = some ⟨(groups.take position).countP definesType,
        defined[(groups.take position).countP definesType]⟩ := by
      rw [earlier.pending, pending, List.getElem?_drop]
      simp [definitionsFrom, within]
    rw [List.countP_singleton, if_pos isType] at count
    obtain ⟨definition, only⟩ := List.length_eq_one_iff.mp count
    rw [types.pending, only] at first
    rw [only, Option.some.inj first]
  · rename_i noType
    rw [List.countP_singleton, if_neg noType] at count
    exact List.eq_nil_of_length_eq_zero count

/-- A function takes its type from the table as it is where the function
stands. -/
theorem taken_at (typed : FieldsTyped before groups parts uses after)
    (table : before.signatures = defined) {position : Nat} {use : Option WrittenType}
    {part : List Field} (isUse : uses[position]? = some use)
    (isPart : parts[position]? = some part) :
    UsesTaken (after.environment.names.get .type)
      (defined ++ inlineSignatures (uses.take position)) use (part.filterMap Field.typeUse?) := by
  obtain ⟨inside, -⟩ := List.getElem?_eq_some_iff.mp isPart
  rw [typed.length_parts] at inside
  obtain ⟨_, _, here, next, alsoPart, alsoUse, earlier, types⟩ :=
    typed.at_position (List.getElem?_eq_getElem inside)
  cases isPart.symm.trans alsoPart
  cases isUse.symm.trans alsoUse
  have taken := types.taken
  rw [earlier.signatures, table] at taken
  exact taken.mono fun refers => typed.refersTo.mpr (earlier.refersTo.mp refers)

theorem numbered (typed : FieldsTyped before groups parts uses after) (signed : before.Signed)
    (definitions : List.Forall₂ (fun group signature => ∃ name, TypeWritten group name signature)
      (groups.filter definesType) defined)
    (table : before.signatures = defined)
    (pending : before.pendingTypes = definitionsFrom 0 defined) (id : Option String) :
    Module.TypesNumbered ⟨id, parts.flatten, after.environment⟩ groups parts defined uses := by
  have count : defined.length = groups.countP definesType := by
    rw [List.countP_eq_length_filter, definitions.length_eq]
  have size : after.environment.size .type =
      groups.countP definesType + (inlineSignatures uses).length := by
    rw [typed.signed signed, typed.signatures, table, List.length_append, count]
  refine ⟨rfl, typed.length_parts, definitions, typed.functions, size, ?_, ?_, ?_, ?_⟩
  · intro position group part isGroup isPart
    exact typed.types_at definitions pending isGroup isPart
  · intro position use part isUse isPart
    exact typed.taken_at table isUse isPart
  · intro position written part typeIndex frame isUse missing isPart member
    have taken := typed.taken_at table isUse isPart
    generalize part.filterMap Field.typeUse? = all at taken member
    cases taken with
    | function taken _ =>
        cases List.mem_singleton.mp member
        rw [taken.index_of_inline missing, List.length_append, count]
  · intro field member typeIndex frame found
    obtain ⟨part, among, inPart⟩ := List.mem_flatten.mp member
    obtain ⟨position, isPart⟩ := List.getElem?_of_mem among
    obtain ⟨inside, -⟩ := List.getElem?_eq_some_iff.mp isPart
    rw [typed.length_parts, typed.functions.length_eq] at inside
    have isUse := List.getElem?_eq_getElem inside
    have taken := typed.taken_at table isUse isPart
    have used : (typeIndex, frame) ∈ part.filterMap Field.typeUse? :=
      List.mem_filterMap.mpr ⟨field, inPart, found⟩
    have room := inlineSignatures_split isUse
    generalize uses[position] = use, part.filterMap Field.typeUse? = all at taken used room
    cases taken with
    | nothing => cases used
    | function taken fresh =>
        cases List.mem_singleton.mp used
        have bound := taken.index_lt
        rw [List.length_append, count] at bound
        rw [Option.bind_some] at room
        refine ⟨?_, fresh⟩
        change typeIndex < after.environment.size .type
        omega

end FieldsTyped

namespace Module

/-- A module that is written has its types numbered. -/
theorem exists_typesNumbered {all : List Token} {module : Module}
    (accepted : ofTokens all = .ok module) :
    ∃ groups parts defined uses, FieldGroups all groups ∧
      module.TypesNumbered groups parts defined uses := by
  obtain ⟨readings, shape, written⟩ := ofTokens_eq_ok_iff_written.mp accepted
  obtain @⟨left, word, right, name, label, groups, parts, middle, final, opened, headed, named,
    declared, fields, closed⟩ := written
  obtain ⟨defined, definitions, table, signed, pending⟩ := declared.types rfl
  obtain ⟨uses, typed⟩ := fields.types signed
  refine ⟨groups.map tokens, parts, defined, uses, ⟨?_, fields.read.isGroup⟩,
    typed.numbered signed definitions table pending label⟩
  refine ⟨left, word, right, name, label, ?_, opened, headed, named, closed⟩
  rw [← shape]
  simp

/-- The types of a module are numbered alike in the fields, the environment and
the frames of the functions.  A definition is never read that had not been
declared, whether the tokens are those of a module or not. -/
theorem ofTokens_types_numbered (all : List Token) :
    (∀ module, ofTokens all = .ok module → ∃ groups parts defined uses,
      FieldGroups all groups ∧ module.TypesNumbered groups parts defined uses) ∧
    ∀ error, ofTokens all = .error error →
      ∀ found, error.fault ≠ .unexpected .declaredType found := by
  constructor
  · intro module accepted
    exact exists_typesNumbered accepted
  · intro error rejected
    exact (ofTokens_concerns rejected).declared

/-- The tokens of a module with functions in front of and behind the type that
the first of them refers to,
`(func (type 0)) (func (param i32)) (type (func (result i64))) (func (type 1))`. -/
def typedBehind : List Token :=
  ([.leftParen, .keyword .moduleForm,
    .leftParen, .keyword .funcForm, .leftParen, .keyword .typeForm, .integer 0, .rightParen,
    .rightParen,
    .leftParen, .keyword .funcForm, .leftParen, .keyword .paramForm, .keyword .i32Type,
    .rightParen, .rightParen,
    .leftParen, .keyword .typeForm, .leftParen, .keyword .funcForm, .leftParen,
    .keyword .resultForm, .keyword .i64Type, .rightParen, .rightParen, .rightParen,
    .leftParen, .keyword .funcForm, .leftParen, .keyword .typeForm, .integer 1, .rightParen,
    .rightParen,
    .rightParen] : List TokenKind).map fun kind => ⟨kind, "", .origin⟩

theorem ofTokens_types_numbered_typedBehind :
    (∃ module, ofTokens typedBehind = .ok module ∧
      (∃ groups parts defined uses, FieldGroups typedBehind groups ∧
        module.TypesNumbered groups parts defined uses) ∧
      module.fields.filterMap Field.type? = [⟨0, ⟨[], [.i64]⟩⟩] ∧
      module.fields.filterMap Field.typeUse? = [(0, ⟨[], 0, [.i64]⟩),
        (1, ⟨[.anonymous .i32], 1, []⟩), (1, ⟨[.anonymous .i32], 1, []⟩)] ∧
      module.environment.size .type = 2) ∧
    ∃ error, ofTokens typedBehind.dropLast = .error error ∧
      ∀ found, error.fault ≠ .unexpected .declaredType found := by
  obtain ⟨module, accepted, types, uses, size⟩ : ∃ module, ofTokens typedBehind = .ok module ∧
      module.fields.filterMap Field.type? = [⟨0, ⟨[], [.i64]⟩⟩] ∧
      module.fields.filterMap Field.typeUse? = [(0, ⟨[], 0, [.i64]⟩),
        (1, ⟨[.anonymous .i32], 1, []⟩), (1, ⟨[.anonymous .i32], 1, []⟩)] ∧
      module.environment.size .type = 2 :=
    ⟨_, rfl, rfl, rfl, rfl⟩
  obtain ⟨error, rejected⟩ : ∃ error, ofTokens typedBehind.dropLast = .error error := ⟨_, rfl⟩
  exact ⟨⟨module, accepted, (ofTokens_types_numbered _).1 module accepted, types, uses, size⟩,
    error, rejected, (ofTokens_types_numbered _).2 error rejected⟩

end Module

end WatMachine
