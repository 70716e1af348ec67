import WatMachine.Proofs.Grammar.Bindings
import WatMachine.Proofs.Grammar.ModuleReaders

/-!
# The table of types

The first pass over a module declares the types that are defined by fields of
their own, with their signatures.  The second pass declares one more type for
every function that refers to none, and hands out the types of the first pass
again where they were defined.  Names and signatures grow together, so every
type that a name refers to has a signature.
-/

namespace WatMachine

open TokenStream Reading Reader

/-- Whether the group of a field defines a type. -/
def definesType (group : List Token) : Bool :=
  headWord? group == some .typeForm

/-- Types are defined by fields of their own only. -/
theorem IndexSpace.ne_type_of_ofKeyword? {word : Keyword} {space : IndexSpace}
    (defines : ofKeyword? word = some space) : space ≠ .type := by
  rintro rfl
  cases word <;> cases defines

/-- The type of a function as it is written, `( type x )? param* result*`. -/
structure WrittenType where
  /-- What is in the place of `x`. -/
  reference : Option Token
  params : List LocalVariable
  results : List ValueType

namespace WrittenType

/-- The signature that is declared for a function without a reference. -/
def inline? (written : WrittenType) : Option Signature :=
  if written.reference.isNone then some ⟨written.params.map (·.type), written.results⟩ else none

end WrittenType

inductive UseWritten : List Token → WrittenType → Prop where
  | mk {type params results : List Token} {reference : Option Token}
      {locals : List (List LocalVariable)} {types : List (List ValueType)}
      (names : NamesType type reference) (bound : BindingGroups .paramForm params locals)
      (given : ResultGroups results types) :
      UseWritten (type ++ (params ++ results)) ⟨reference, locals.flatten, types.flatten⟩

/-- Whether the group of a field is a function or the import of a function,
with its type as it is written. -/
inductive FunctionTyped : List Token → WrittenType → Prop where
  | function {left head : Token} {name exports imported use tail : List Token}
      {label : Option String} {names : List String} {source : Option (String × String)}
      {written : WrittenType} (headed : head.kind = .keyword .funcForm) (named : Named name label)
      (exported : Many (Group .exportForm StringWord) exports names)
      (importing : InlineImport imported source) (typed : UseWritten use written)
      (beyond : Beyond [.exportForm, .importForm, .typeForm, .paramForm, .resultForm]
        ⟨tail, .origin⟩) :
      FunctionTyped (left :: head :: name ++ exports ++ imported ++ use ++ tail) written
  | imported {left head first second opening word closing right : Token} {name use : List Token}
      {label : Option String} {written : WrittenType} (headed : head.kind = .keyword .importForm)
      (described : word.kind = .keyword .funcForm) (named : Named name label)
      (typed : UseWritten use written) (closes : closing.kind = .rightParen) :
      FunctionTyped
        (left :: head :: first :: second :: opening :: word :: name ++ use ++ [closing, right])
        written

/-- The type index and the frame of a function, if a field is one or imports
one. -/
def Field.typeUse? : Field → Option (Nat × Frame)
  | .function definition => some (definition.typeIndex, definition.frame)
  | .imported ⟨_, _, .function _ typeIndex frame⟩ => some (typeIndex, frame)
  | _ => none

theorem RefersTo.congr {names others : List (Option String)} {token : Token} {index : Nat}
    (refers : RefersTo names token index)
    (same : ∀ (text : String) (place : Nat),
      names[place]? = some (some text) ↔ others[place]? = some (some text)) :
    RefersTo others token index := by
  cases refers with
  | number kind positive small => exact .number kind positive small
  | name kind first =>
      simp only [same] at first
      exact .name kind first

/-- Definitions without a name are not found by name. -/
theorem RefersTo.append_iff {names more : List (Option String)} {token : Token} {index : Nat}
    (unnamed : ∀ name ∈ more, name = none) :
    RefersTo (names ++ more) token index ↔ RefersTo names token index := by
  have same (text : String) (place : Nat) :
      (names ++ more)[place]? = some (some text) ↔ names[place]? = some (some text) := by
    rw [List.getElem?_append]
    split
    · rfl
    · rename_i beyond
      rw [List.getElem?_eq_none (Nat.not_lt.mp beyond)]
      constructor
      · intro found
        cases unnamed _ (List.mem_of_getElem? found)
      · nofun
  constructor
  · intro refers
    exact refers.congr same
  · intro refers
    exact refers.congr fun text place => (same text place).symm

/-- What is made of the type of a function as it is written, among the types of
a table: its type index, its parameters and its results.  A type that is
referred to supplies the parameters and results if neither are written. -/
inductive TypeTaken (names : List (Option String)) (table : List Signature) :
    WrittenType → Nat → List LocalVariable → List ValueType → Prop where
  | inline {params : List LocalVariable} {results : List ValueType} :
      TypeTaken names table ⟨none, params, results⟩ table.length params results
  | repeated {token : Token} {index : Nat} {params : List LocalVariable}
      {results : List ValueType} (refers : RefersTo names token index)
      (known : index < table.length) (stated : params ≠ [] ∨ results ≠ []) :
      TypeTaken names table ⟨some token, params, results⟩ index params results
  | supplied {token : Token} {index : Nat} {signature : Signature}
      (refers : RefersTo names token index) (found : table[index]? = some signature) :
      TypeTaken names table ⟨some token, [], []⟩ index (signature.params.map .anonymous)
        signature.results

namespace Frame

/-- The parameters of a function. -/
def params (frame : Frame) : List LocalVariable :=
  frame.locals.take frame.argumentCount

/-- Whether a frame has its parameters among its variables, and all of these
hold zero. -/
structure Fresh (frame : Frame) : Prop where
  arguments : frame.argumentCount ≤ frame.locals.length
  zero : ∀ slot ∈ frame.locals, slot.value = 0

theorem signature_ofParams (params : List LocalVariable) (results : List ValueType) :
    (ofParams params results).signature = ⟨params.map (·.type), results⟩ := by
  simp [signature, ofParams]

end Frame

section Unique

theorem NamesType.atGroup {type : List Token} {reference : Option Token}
    (names : NamesType type reference) {stream : TokenStream}
    (untyped : stream.atGroup .typeForm = false) :
    (stream.prepend type).atGroup .typeForm = reference.isSome := by
  cases names with
  | omitted => exact untyped
  | written opened headed _ =>
      rw [atGroup_prepend opened headed]
      simp

/-- Two ways to name a type in front of something else are the same. -/
theorem NamesType.unique {type other : List Token} {reference others : Option Token}
    {stream behind : TokenStream} (names : NamesType type reference)
    (alsoNames : NamesType other others) (untyped : stream.atGroup .typeForm = false)
    (alsoUntyped : behind.atGroup .typeForm = false)
    (same : stream.prepend type = behind.prepend other) :
    reference = others ∧ stream = behind := by
  have shown := names.atGroup untyped
  rw [same, alsoNames.atGroup alsoUntyped] at shown
  obtain ⟨ahead, finish⟩ := stream
  obtain ⟨rest, last⟩ := behind
  cases names <;> cases alsoNames <;> simp_all [prepend]

theorem UseWritten.unique {use other : List Token} {written more : WrittenType}
    {stream behind : TokenStream} (used : UseWritten use written) (alsoUsed : UseWritten other more)
    (beyond : Beyond [.typeForm, .paramForm, .resultForm] stream)
    (alsoBeyond : Beyond [.typeForm, .paramForm, .resultForm] behind)
    (same : stream.prepend use = behind.prepend other) : written = more := by
  have unsigned {results : List Token} {types : List (List ValueType)} {stream : TokenStream}
      (beyond : Beyond [.typeForm, .paramForm, .resultForm] stream)
      (given : ResultGroups results types) :
      Beyond [.typeForm, .paramForm] (stream.prepend results) :=
    (beyond.mono (by simp)).groups given (by decide)
  have untyped {params : List Token} {locals : List (List LocalVariable)} {stream : TokenStream}
      (beyond : Beyond [.typeForm, .paramForm] stream)
      (bound : BindingGroups .paramForm params locals) :
      (stream.prepend params).atGroup .typeForm = false :=
    ((beyond.mono (by simp) : Beyond [.typeForm] stream).groups bound (by decide)).free .typeForm
      (by simp)
  obtain ⟨names, bound, given⟩ := used
  obtain ⟨alsoNames, alsoBound, alsoGiven⟩ := alsoUsed
  simp only [prepend_append] at same
  have atResults := unsigned beyond given
  have alsoAtResults := unsigned alsoBeyond alsoGiven
  obtain ⟨rfl, same⟩ := names.unique alsoNames (untyped atResults bound)
    (untyped alsoAtResults alsoBound) same
  obtain ⟨params, same⟩ := (bindings_reads .paramForm).unique ⟨_, bound, rfl⟩ ⟨_, alsoBound, rfl⟩
    (atResults.free .paramForm (by simp)) (alsoAtResults.free .paramForm (by simp)) same
  obtain ⟨results, -⟩ := results_reads.unique ⟨_, given, rfl⟩ ⟨_, alsoGiven, rfl⟩
    (beyond.free .resultForm (by simp)) (alsoBeyond.free .resultForm (by simp)) same
  rw [params, results]

/-- A name ends in one place only in front of something else. -/
theorem Named.rest_unique {name other : List Token} {label more : Option String}
    {stream behind : TokenStream} (named : Named name label) (alsoNamed : Named other more)
    (unnamed : stream.current.kind.identifier? = none)
    (alsoUnnamed : behind.current.kind.identifier? = none)
    (same : stream.prepend name = behind.prepend other) : stream = behind := by
  have read := identifier?_eq_ok.mpr ⟨name, rfl, named, fun _ => unnamed⟩
  rw [same, identifier?_eq_ok.mpr ⟨other, rfl, alsoNamed, fun _ => alsoUnnamed⟩] at read
  cases read
  rfl

theorem UseWritten.beyond {words : List Keyword} {use : List Token} {written : WrittenType}
    {stream : TokenStream} (used : UseWritten use written) (beyond : Beyond words stream)
    (others : .typeForm ∉ words ∧ .paramForm ∉ words ∧ .resultForm ∉ words) :
    Beyond words (stream.prepend use) := by
  obtain ⟨names, bound, given⟩ := used
  have signed := (beyond.groups given others.2.2).groups bound others.2.1
  rw [← prepend_append] at signed
  cases names with
  | omitted => exact signed
  | written opened headed _ => exact .of_group opened headed others.1

/-- The parts of a function in front of its type can be told apart. -/
theorem UseWritten.fronts {exports imported use : List Token} {names : List String}
    {source : Option (String × String)} {written : WrittenType} {stream : TokenStream}
    (exported : Many (Group .exportForm StringWord) exports names)
    (importing : InlineImport imported source) (used : UseWritten use written)
    (beyond : Beyond [.exportForm, .importForm, .typeForm, .paramForm, .resultForm] stream) :
    (stream.prepend use).atGroup .importForm = false ∧
      ((stream.prepend use).prepend imported).atGroup .exportForm = false ∧
      (((stream.prepend use).prepend imported).prepend exports).current.kind.identifier? =
        none := by
  have typeBeyond : Beyond [.exportForm, .importForm] (stream.prepend use) :=
    used.beyond (beyond.mono (by simp)) (by decide)
  have importBeyond : Beyond [.exportForm] ((stream.prepend use).prepend imported) :=
    .inlineImport importing (typeBeyond.mono (by simp)) (by decide)
  have exportsBeyond : Beyond [] (((stream.prepend use).prepend imported).prepend exports) :=
    (importBeyond.mono (by simp)).groups exported (by decide)
  exact ⟨typeBeyond.free .importForm (by simp), importBeyond.free .exportForm (by simp),
    exportsBeyond.unnamed⟩

/-- The type of a function is written in one way only. -/
theorem FunctionTyped.unique {group : List Token} {written more : WrittenType}
    (typed : FunctionTyped group written) (alsoTyped : FunctionTyped group more) :
    written = more := by
  generalize same : group = other at alsoTyped
  cases typed with
  | @function _ _ name exports imported use tail _ _ _ _ headed named exported importing used
      beyond =>
      cases alsoTyped with
      | @function _ _ name exports imported use tail _ _ _ _ _ alsoNamed alsoExported
          alsoImporting alsoUsed alsoBeyond =>
          obtain ⟨unimported, unexported, unnamed⟩ := used.fronts exported importing beyond
          obtain ⟨alsoUnimported, alsoUnexported, alsoUnnamed⟩ :=
            alsoUsed.fronts alsoExported alsoImporting alsoBeyond
          simp only [List.cons_append, List.append_assoc, List.cons.injEq] at same
          have atExports := named.rest_unique alsoNamed unnamed alsoUnnamed
            (by simp [prepend, same.2.2])
          obtain ⟨-, atImport⟩ := (many_groups_reads Builder.inlineExport_reads).unique exported
            alsoExported unexported alsoUnexported atExports
          obtain ⟨-, atType⟩ := Builder.inlineImport?_reads.unique importing alsoImporting
            unimported alsoUnimported atImport
          exact used.unique alsoUsed (beyond.mono (by simp)) (alsoBeyond.mono (by simp)) atType
      | imported alsoHeaded =>
          simp only [List.cons_append, List.cons.injEq] at same
          rw [same.2.1, alsoHeaded] at headed
          cases headed
  | @imported _ _ _ _ _ _ closing right name use _ _ headed described named used closes =>
      cases alsoTyped with
      | function alsoHeaded =>
          simp only [List.cons_append, List.cons.injEq] at same
          rw [same.2.1, alsoHeaded] at headed
          cases headed
      | @imported _ _ _ _ _ _ alsoClosing alsoRight _ _ _ _ _ _ alsoNamed alsoUsed alsoCloses =>
          have ends {closing : Token} (right : Token) (closes : closing.kind = .rightParen)
              (words : List Keyword) : Beyond words ⟨[closing, right], .origin⟩ :=
            .of_rightParen closes
          simp only [List.cons_append, List.append_assoc, List.cons.injEq] at same
          obtain ⟨-, -, -, -, -, -, same⟩ := same
          have atUse := named.rest_unique alsoNamed
            (used.beyond (ends right closes []) (by simp)).unnamed
            (alsoUsed.beyond (ends alsoRight alsoCloses []) (by simp)).unnamed
            (by simp [prepend, same])
          exact used.unique alsoUsed (ends _ closes _) (ends _ alsoCloses _) atUse

end Unique

namespace Declarations

variable {before middle after : Declarations}

/-- Whether every type that is declared has a signature. -/
def Signed (declarations : Declarations) : Prop :=
  declarations.environment.size .type = declarations.signatures.length

theorem Signed.claim (signed : before.Signed) (space : IndexSpace) : (before.claim space).Signed :=
  signed

theorem Signed.declareType (signed : before.Signed) (name : Option String)
    (signature : Signature) : (before.declareType name signature).Signed := by
  simpa [Signed, Declarations.declareType, declare] using signed

theorem Signed.declare (signed : before.Signed) {space : IndexSpace} (other : space ≠ .type)
    (name : Option String) : (before.declare space name).Signed := by
  simpa [Signed, Declarations.declare, other.symm] using signed

/-- Whether at most one type has been declared in between, and one without a
name.  What other types are called does not change then. -/
structure Grown (before : Declarations) (added : Option Signature) (after : Declarations) :
    Prop where
  signatures : after.signatures = before.signatures ++ added.toList
  names : after.environment.names.get .type =
    before.environment.names.get .type ++ added.toList.map fun _ => none

theorem Grown.signed {added : Option Signature} (grown : Grown before added after)
    (signed : before.Signed) : after.Signed := by
  rw [Signed, Environment.size, grown.names, grown.signatures, List.length_append,
    List.length_append, List.length_map, ← signed, Environment.size]

theorem Grown.same (types : after.environment = before.environment)
    (signatures : after.signatures = before.signatures) : Grown before none after :=
  ⟨by simp [signatures], by simp [types]⟩

theorem Grown.claim {added : Option Signature} {space : IndexSpace}
    (grown : Grown (before.claim space) added after) : Grown before added after :=
  ⟨grown.signatures, grown.names⟩

theorem Grown.refersTo {added : Option Signature} (grown : Grown before added after)
    {token : Token} {index : Nat} :
    RefersTo (after.environment.names.get .type) token index ↔
      RefersTo (before.environment.names.get .type) token index := by
  rw [grown.names]
  exact RefersTo.append_iff (by simp)

theorem grown_declareType (before : Declarations) (signature : Signature) :
    Grown before (some signature) (before.declareType none signature) :=
  ⟨rfl, by simp [declareType, declare]⟩

end Declarations

open Declarations

theorem Binding.fresh {tokens : List Token} {locals : List LocalVariable}
    (binding : Binding tokens locals) : ∀ slot ∈ locals, slot.value = 0 := by
  cases binding with
  | anonymous => simp [LocalVariable.anonymous]
  | named => simp

theorem BindingGroups.fresh {word : Keyword} {tokens : List Token}
    {locals : List (List LocalVariable)} (bound : BindingGroups word tokens locals) :
    ∀ slot ∈ locals.flatten, slot.value = 0 := by
  induction bound with
  | nil => simp
  | cons item _ ih =>
      obtain ⟨-, -, within, -⟩ := item
      rw [List.flatten_cons]
      exact List.forall_mem_append.mpr ⟨within.fresh, ih⟩

/-- A type supplies the parameters and results if neither are written. -/
theorem TypeTaken.of_found {names : List (Option String)} {table : List Signature}
    {token : Token} {index : Nat} {signature : Signature} (refers : RefersTo names token index)
    (found : table[index]? = some signature) (params : List LocalVariable)
    (results : List ValueType) :
    TypeTaken names table ⟨some token, params, results⟩ index
      (Frame.ofTypeUse signature params results).locals
      (Frame.ofTypeUse signature params results).results := by
  by_cases nothing : params = [] ∧ results = []
  · obtain ⟨rfl, rfl⟩ := nothing
    exact .supplied refers found
  · have stated : (params.isEmpty && results.isEmpty) = false := by
      simpa [List.isEmpty_iff] using nothing
    rw [Frame.ofTypeUse, stated]
    refine .repeated refers (List.getElem?_eq_some_iff.mp found).1 ?_
    exact Decidable.not_and_iff_not_or_not.mp nothing

theorem Frame.fresh_ofTypeUse (signature : Signature) {params : List LocalVariable}
    (zero : ∀ slot ∈ params, slot.value = 0) (results : List ValueType) :
    (ofTypeUse signature params results).argumentCount =
        (ofTypeUse signature params results).locals.length ∧
      ∀ slot ∈ (ofTypeUse signature params results).locals, slot.value = 0 := by
  unfold ofTypeUse
  split
  · exact ⟨rfl, by simp [ofSignature, ofParams, LocalVariable.anonymous]⟩
  · exact ⟨rfl, zero⟩

/-- What a function makes of its type as it is written. -/
structure UseTaken (before : Declarations) (written : WrittenType) (typeIndex : Nat)
    (frame : Frame) (after : Declarations) : Prop where
  taken : TypeTaken (before.environment.names.get .type) before.signatures written typeIndex
    frame.locals frame.results
  arguments : frame.argumentCount = frame.locals.length
  zero : ∀ slot ∈ frame.locals, slot.value = 0
  grown : Grown before written.inline? after
  pending : after.pendingTypes = before.pendingTypes

theorem TypeUse.written {before after : Declarations} {readings : List Reading}
    {typeIndex : Nat} {frame : Frame} (used : TypeUse before readings (typeIndex, frame) after)
    (signed : before.Signed) :
    ∃ written, UseWritten (tokens readings) written ∧
      UseTaken before written typeIndex frame after := by
  cases used with
  | @declared _ _ signature _ _ locals types reference found bound given =>
      obtain ⟨opened, headed, refers, closed⟩ := reference
      obtain ⟨arguments, zero⟩ := Frame.fresh_ofTypeUse signature bound.fresh types.flatten
      refine ⟨_, ?_, .of_found refers found _ _, arguments, zero, .same rfl rfl, rfl⟩
      simpa using UseWritten.mk (.written opened headed closed) bound given
  | @inline _ _ locals types bound given =>
      have inline : WrittenType.inline? ⟨none, locals.flatten, types.flatten⟩ =
          some (Frame.ofParams locals.flatten types.flatten).signature := by
        rw [Frame.signature_ofParams]
        rfl
      refine ⟨⟨none, locals.flatten, types.flatten⟩, ?_, ?_, rfl, bound.fresh, ?_, rfl⟩
      · rw [tokens_others]
        exact .mk .omitted bound given
      · rw [signed]
        exact .inline
      · rw [inline]
        exact grown_declareType _ _

/-- What the functions of a field take as their types.  There is one at most. -/
inductive UsesTaken (names : List (Option String)) (table : List Signature) :
    Option WrittenType → List (Nat × Frame) → Prop where
  | nothing : UsesTaken names table none []
  | function {written : WrittenType} {typeIndex : Nat} {frame : Frame}
      (taken : TypeTaken names table written typeIndex frame.params frame.results)
      (fresh : frame.Fresh) : UsesTaken names table (some written) [(typeIndex, frame)]

section Names

variable {names others : List (Option String)} {table : List Signature}
  (kept : ∀ {token index}, RefersTo names token index → RefersTo others token index)

include kept

/-- What is taken depends on the names only by what references mean. -/
theorem TypeTaken.mono {written : WrittenType} {typeIndex : Nat} {params : List LocalVariable}
    {results : List ValueType} (taken : TypeTaken names table written typeIndex params results) :
    TypeTaken others table written typeIndex params results := by
  cases taken with
  | inline => exact .inline
  | repeated refers known stated => exact .repeated (kept refers) known stated
  | supplied refers found => exact .supplied (kept refers) found

theorem UsesTaken.mono {use : Option WrittenType} {uses : List (Nat × Frame)}
    (taken : UsesTaken names table use uses) : UsesTaken others table use uses := by
  cases taken with
  | nothing => exact .nothing
  | function taken fresh => exact .function (taken.mono kept) fresh

end Names

/-- What a field does to the table of types, and what it takes from it. -/
structure FieldTypes (before : Declarations) (group : List Token) (part : List Field)
    (use : Option WrittenType) (after : Declarations) : Prop where
  use_iff : ∀ written, use = some written ↔ FunctionTyped group written
  taken : UsesTaken (before.environment.names.get .type) before.signatures use
    (part.filterMap Field.typeUse?)
  grown : Grown before (use.bind WrittenType.inline?) after
  pending : before.pendingTypes = part.filterMap Field.type? ++ after.pendingTypes
  defined : (part.filterMap Field.type?).length = [group].countP definesType

section Fields

variable {before after : Declarations} {group : List Token} {written : WrittenType}

/-- A function is headed by `func`, at the front or in the inner group of an
import. -/
theorem FunctionTyped.headed (typed : FunctionTyped group written) :
    headWord? group = some .funcForm ∨
      headWord? group = some .importForm ∧
        group[5]?.map Token.kind = some (.keyword .funcForm) := by
  cases typed with
  | function headed => exact .inl (by simp [headWord?, headed, TokenKind.keyword?])
  | imported headed described =>
      exact .inr ⟨by simp [headWord?, headed, TokenKind.keyword?], by simp [described]⟩

theorem FunctionTyped.use_iff (typed : FunctionTyped group written) :
    ∀ other, some written = some other ↔ FunctionTyped group other := by
  intro other
  constructor
  · rintro ⟨⟩
    exact typed
  · intro alsoTyped
    rw [typed.unique alsoTyped]

/-- A field that is neither a function nor an import takes no type. -/
theorem FieldTypes.of_other {part : List Field}
    (other : headWord? group ∉ [some .funcForm, some .importForm])
    (nothing : part.filterMap Field.typeUse? = []) (grown : Grown before none after)
    (pending : before.pendingTypes = part.filterMap Field.type? ++ after.pendingTypes)
    (defined : (part.filterMap Field.type?).length = [group].countP definesType) :
    FieldTypes before group part none after := by
  refine ⟨fun written => ⟨nofun, fun typed => ?_⟩, ?_, grown, pending, defined⟩
  · obtain isFunction | ⟨isImport, -⟩ := typed.headed
    · exact absurd isFunction fun same => other (by simp [same])
    · exact absurd isImport fun same => other (by simp [same])
  · rw [nothing]
    exact .nothing

theorem countP_definesType_of_other (other : headWord? group ≠ some .typeForm) :
    [group].countP definesType = 0 := by
  simpa [definesType] using other

theorem countP_definesType_cons (group : List Token) (groups : List (List Token)) :
    (group :: groups).countP definesType =
      [group].countP definesType + groups.countP definesType := by
  rw [← List.singleton_append, List.countP_append]

/-- Variables that are declared behind the parameters of a function do not
change what it takes as its type. -/
theorem UseTaken.usesTaken {typeIndex : Nat} {frame : Frame}
    (taken : UseTaken before written typeIndex frame after) {locals : List LocalVariable}
    (zero : ∀ slot ∈ locals, slot.value = 0) :
    UsesTaken (before.environment.names.get .type) before.signatures (some written)
      [(typeIndex, { frame with locals := frame.locals ++ locals })] := by
  refine .function ?_ ⟨?_, List.forall_mem_append.mpr ⟨taken.zero, zero⟩⟩
  · rw [Frame.params]
    dsimp only
    rw [taken.arguments, List.take_left]
    exact taken.taken
  · rw [taken.arguments, List.length_append]
    exact Nat.le_add_right _ _

theorem FunctionTail.usesTaken {environment : Environment} {index typeIndex : Nat} {frame : Frame}
    {source : Option (String × String)} {readings : List Reading} {field : Field}
    (tail : FunctionTail environment index typeIndex frame source readings field)
    (taken : UseTaken before written typeIndex frame after) :
    field.type? = none ∧ UsesTaken (before.environment.names.get .type) before.signatures
      (some written) field.typeUse?.toList := by
  cases tail with
  | imported =>
      have alone := taken.usesTaken (List.forall_mem_nil _)
      rw [List.append_nil] at alone
      exact ⟨rfl, alone⟩
  | defined bound => exact ⟨rfl, taken.usesTaken bound.fresh⟩

/-- What is read off a function and its inline exports is read off the
function. -/
theorem filterMap_function {α : Type} {read : Field → Option α}
    (exports : ∀ target, read (.exported target) = none) (field : Field) (index : Nat)
    (names : List String) :
    (field :: names.map fun name => .exported ⟨name, .function, index⟩).filterMap read =
      (read field).toList := by
  have nothing : (names.map fun name => Field.exported ⟨name, .function, index⟩).filterMap read =
      [] := by
    simp [List.filterMap_map, exports]
  rw [List.filterMap_cons, nothing]
  cases read field <;> rfl

theorem FunctionWritten.types {readings : List Reading} {label : Option String}
    {part : List Field} (function : FunctionWritten before readings label part after)
    (signed : before.Signed) :
    ∃ use, FieldTypes before (tokens readings) part use after := by
  obtain @⟨left, head, right, name, exports, imported, _, names, source, type, tail, typeIndex,
    frame, field, _, opened, headed, named, exported, importing, typed, followed, closed⟩ :=
      function
  obtain ⟨written, isWritten, taken⟩ := typed.written (signed.claim _)
  have beyond : Beyond [.exportForm, .importForm, .typeForm, .paramForm, .resultForm]
      ⟨tokens tail ++ [right], .origin⟩ := by
    have ended : Beyond [.exportForm, .importForm, .typeForm, .paramForm, .resultForm]
        ⟨[right], .origin⟩ := .of_rightParen closed
    exact .functionTail followed ended (by decide) (by decide)
  have isTyped := @FunctionTyped.function left _ _ _ _ _ _ _ _ _ _ headed named exported importing
    isWritten beyond
  have whole : tokens (others (left :: head :: name ++ exports ++ imported) ++ type ++ tail ++
      others [right]) = left :: head :: name ++ exports ++ imported ++ tokens type ++
        (tokens tail ++ [right]) := by
    simp
  have noType : [left :: head :: name ++ exports ++ imported ++ tokens type ++
      (tokens tail ++ [right])].countP definesType = 0 :=
    countP_definesType_of_other (by simp [headWord?, headed, TokenKind.keyword?])
  obtain ⟨untyped, uses⟩ := followed.usesTaken taken
  refine ⟨some written, ?_, ?_, taken.grown.claim, ?_, ?_⟩
  · rw [whole]
    exact isTyped.use_iff
  · rw [filterMap_function fun _ => rfl]
    exact uses
  · rw [filterMap_function fun _ => rfl, untyped, taken.pending]
    rfl
  · rw [filterMap_function fun _ => rfl, untyped, whole, noType]
    rfl

/-- An import of something else than a function takes no type. -/
theorem FieldTypes.of_import {left head first second opening word : Token} {inner : List Token}
    {keyword : Keyword} {declaration : Import} {space : IndexSpace}
    (headed : head.kind = .keyword .importForm) (described : word.kind = .keyword keyword)
    (other : keyword ≠ .funcForm) (nothing : (Field.imported declaration).typeUse? = none) :
    FieldTypes before (left :: head :: first :: second :: opening :: word :: inner)
      [.imported declaration] none (before.claim space) := by
  refine ⟨fun written => ⟨nofun, fun typed => ?_⟩, ?_, .same rfl rfl, rfl, ?_⟩
  · obtain isFunction | ⟨-, isFunction⟩ := typed.headed
    · simp [headWord?, headed, TokenKind.keyword?] at isFunction
    · simp [described, other] at isFunction
  · rw [List.filterMap_cons_none nothing]
    exact .nothing
  · rw [countP_definesType_of_other (by simp [headWord?, headed, TokenKind.keyword?])]
    rfl

theorem ImportTargetWritten.types {left head first second opening word closing right : Token}
    {source name : String} {keyword : Keyword} {kind : ExternalKind} {inner : List Reading}
    {target : ImportTarget} (headed : head.kind = .keyword .importForm)
    (described : word.kind = .keyword keyword)
    (isKind : ExternalKind.ofKeyword? keyword = some kind)
    (targeted : ImportTargetWritten (before.claim kind.space) (before.claimed.get kind.space) kind
      inner target after)
    (closes : closing.kind = .rightParen) (signed : before.Signed) :
    ∃ use, FieldTypes before
      (left :: head :: first :: second :: opening :: word :: tokens inner ++ [closing, right])
      [.imported ⟨source, name, target⟩] use after := by
  have noType : [left :: head :: first :: second :: opening :: word :: tokens inner ++
      [closing, right]].countP definesType = 0 :=
    countP_definesType_of_other (by simp [headWord?, headed, TokenKind.keyword?])
  cases targeted with
  | @function front _ type _ _ _ named typed =>
      obtain ⟨written, isWritten, taken⟩ := typed.written (signed.claim _)
      have isFunction : word.kind = .keyword .funcForm := by
        rw [described]
        cases keyword <;> cases isKind
        rfl
      have isTyped := @FunctionTyped.imported left head first second opening word closing right _ _
        _ _ headed isFunction named isWritten closes
      have alone := taken.usesTaken (List.forall_mem_nil _)
      rw [List.append_nil] at alone
      refine ⟨some written, ?_, alone, taken.grown.claim, taken.pending.symm, noType.symm⟩
      rw [tokens_append, tokens_others]
      simpa using isTyped.use_iff
  | memory | table | global =>
      refine ⟨none, .of_import headed described ?_ rfl⟩
      rintro rfl
      cases isKind

theorem FieldWritten.types {readings : List Reading} {part : List Field}
    (field : FieldWritten before readings part after) (signed : before.Signed) :
    ∃ use, FieldTypes before (tokens readings) part use after := by
  cases field with
  | function function => exact function.types signed
  | @exported left head text opening word token closing right _ _ _ index opened headed =>
      have isHead : headWord? (tokens (others [left, head, text, opening, word] ++
          [⟨token, some index⟩] ++ others [closing, right])) = some .exportForm := by
        simp [headWord?, headed, TokenKind.keyword?]
      refine ⟨none, .of_other (by rw [isHead]; decide) rfl (.same rfl rfl) rfl ?_⟩
      rw [countP_definesType_of_other (by rw [isHead]; decide)]
      rfl
  | @imported left head first second opening word closing right source name _ _ inner _ _ _ headed
      _ _ _ described isKind targeted closes =>
      have whole : tokens (others [left, head, first, second, opening, word] ++ inner ++
          others [closing, right]) =
            left :: head :: first :: second :: opening :: word :: tokens inner ++
              [closing, right] := by
        simp
      rw [whole]
      exact targeted.types headed described isKind closes signed
  | @type group definition pendingTypes isGroup headed pending =>
      rw [tokens_others]
      refine ⟨none, .of_other (by rw [headed]; decide) rfl (.same rfl rfl) pending ?_⟩
      simp [definesType, headed, Field.type?]
  | @skipped group isGroup other =>
      rw [tokens_others]
      refine ⟨none, .of_other (fun member => other ?_) rfl ?_ ?_ ?_⟩
      · exact List.Sublist.subset (by decide) member
      · split <;> exact .same rfl rfl
      · split <;> rfl
      · rw [countP_definesType_of_other fun isType => other (by simp [isType])]
        rfl

end Fields

end WatMachine
