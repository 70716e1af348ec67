import WatMachine.Proofs.Grammar.Advance
import WatMachine.Proofs.Grammar.BlamedModules

/-!
# Reading always ends

Every reader that is entered again has taken a token in between, and none
passes the end of input or goes back, apart from the first pass over the fields
as a whole, which ends where it began.  So fuel that grows with the number of
tokens is enough wherever readers are given some, more of it makes no
difference, and a module is read to its end or rejected for what is in it.
-/

namespace WatMachine

open TokenStream

variable {α β : Type}

namespace Reader

/-- The readers of the grammar. -/
inductive Listed : {α : Type} → Reader α → Prop where
  | advance : Listed advance
  | accept {α : Type} (expected : Expectation) (select : TokenKind → Option α) :
      Listed (accept expected select)
  | acceptKind (expected : Expectation) (kind : TokenKind) : Listed (acceptKind expected kind)
  | leftParen : Listed leftParen
  | rightParen : Listed rightParen
  | keyword (word : Keyword) : Listed (keyword word)
  | openGroup (word : Keyword) : Listed (openGroup word)
  | string : Listed string
  | integer : Listed integer
  | natural (expected : Expectation) : Listed (natural expected)
  | valueType : Listed valueType
  | identifier? : Listed identifier?
  | resolved (expected : Expectation) (referent : Referent) (resolve : Identifier → Option Nat) :
      Listed (resolved expected referent resolve)
  | closeGroup : Listed closeGroup
  | skipGroup : Listed skipGroup
  | many {α : Type} (here : TokenStream → Bool) {item : Reader α} (listed : Listed item) :
      Listed (many here item)
  | valueTypes : Listed valueTypes
  | groupBindings : Listed groupBindings
  | bindingGroup (word : Keyword) : Listed (bindingGroup word)
  | bindings (word : Keyword) : Listed (bindings word)
  | resultGroup : Listed resultGroup
  | results : Listed results
  | definitionIndex (environment : Environment) (expected : Expectation) (space : IndexSpace) :
      Listed (definitionIndex environment expected space)
  | typeOperand (scope : Scope) : Listed (typeOperand scope)
  | indirectType (scope : Scope) : Listed (indirectType scope)
  | word32 : Listed word32
  | operand (scope : Scope) (opcode : Keyword) : Listed (operand scope opcode)
  | plain (scope : Scope) : Listed (plain scope)
  | closingLabel (opening : Option String) : Listed (closingLabel opening)
  | sequence (fuel : Nat) (scope : Scope) : Listed (sequence fuel scope)
  | instruction (fuel : Nat) (scope : Scope) : Listed (instruction fuel scope)
  | folded (fuel : Nat) (scope : Scope) : Listed (folded fuel scope)
  | foldedOperands (fuel : Nat) (scope : Scope) : Listed (foldedOperands fuel scope)
  | openBlock (fuel : Nat) (scope : Scope) (kind : BlockKind) : Listed (openBlock fuel scope kind)
  | body (environment : Environment) (frame : Frame) : Listed (body environment frame)
  | inlineExport : Listed Builder.inlineExport
  | inlineImport : Listed Builder.inlineImport
  | externalKind (expected : Expectation) : Listed (Builder.externalKind expected)
  | limits : Listed Builder.limits

theorem Listed.takes {reader : Reader α} (listed : Listed reader) : Takes 0 reader := by
  have any {α : Type} {reader : Reader α} {least : Nat} (takes : Takes least reader) :
      Takes 0 reader :=
    takes.mono (Nat.zero_le _)
  induction listed with
  | advance => exact .advance
  | accept expected select => exact accept_takes
  | acceptKind expected kind => exact acceptKind_takes
  | leftParen => exact any leftParen_takes
  | rightParen => exact any rightParen_takes
  | keyword word => exact any keyword_takes
  | openGroup word => exact any openGroup_takes
  | string => exact any string_takes
  | integer => exact any integer_takes
  | natural expected => exact any natural_takes
  | valueType => exact any valueType_takes
  | identifier? => exact identifier?_takes
  | resolved expected referent resolve => exact any resolved_takes
  | closeGroup => exact any closeGroup_takes
  | skipGroup => exact any skipGroup_takes
  | many here listed ih => exact .many ih
  | valueTypes => exact valueTypes_takes
  | groupBindings => exact groupBindings_takes
  | bindingGroup word => exact any bindingGroup_takes
  | bindings word => exact bindings_takes
  | resultGroup => exact any resultGroup_takes
  | results => exact results_takes
  | definitionIndex environment expected space => exact any definitionIndex_takes
  | typeOperand scope => exact any typeOperand_takes
  | indirectType scope => exact indirectType_takes
  | word32 => exact any word32_takes
  | operand scope opcode => exact operand_takes
  | plain scope => exact any plain_takes
  | closingLabel opening => exact closingLabel_takes
  | sequence fuel scope => exact (bodiesTake fuel).sequence scope
  | instruction fuel scope => exact any ((bodiesTake fuel).instruction scope)
  | folded fuel scope => exact any ((bodiesTake fuel).folded scope)
  | foldedOperands fuel scope => exact (bodiesTake fuel).foldedOperands scope
  | openBlock fuel scope kind => exact (bodiesTake fuel).openBlock scope kind
  | body environment frame => exact body_takes
  | inlineExport => exact any Builder.inlineExport_takes
  | inlineImport => exact any Builder.inlineImport_takes
  | externalKind expected => exact any Builder.externalKind_takes
  | limits => exact any Builder.limits_takes

/-- Whether the second reader does what the first one does, where the first one
does not run out of fuel. -/
def Within (first second : Reader α) : Prop :=
  ∀ stream, (∃ span, first stream = .error ⟨.outOfFuel, span⟩) ∨ first stream = second stream

namespace Within

theorem refl (reader : Reader α) : Within reader reader :=
  fun _ => .inr rfl

theorem outOfFuel (reader : Reader α) : Within outOfFuel reader :=
  fun _ => .inl ⟨_, rfl⟩

theorem bind {first second : Reader α} {next after : α → Reader β} (begins : Within first second)
    (goesOn : ∀ value, Within (next value) (after value)) :
    Within (first >>= next) (second >>= after) := by
  intro stream
  rw [bind_apply, bind_apply]
  obtain ⟨span, starved⟩ | same := begins stream
  · rw [starved]
    exact .inl ⟨span, rfl⟩
  · rw [← same]
    cases first stream with
    | error error => exact .inr rfl
    | ok result => exact goesOn result.1 result.2

end Within

/-- What the readers of bodies do with some fuel they also do with more. -/
structure BodiesWithin (fuel : Nat) : Prop where
  sequence : ∀ scope, Within (sequence fuel scope) (sequence (fuel + 1) scope)
  instruction : ∀ scope, Within (instruction fuel scope) (instruction (fuel + 1) scope)
  folded : ∀ scope, Within (folded fuel scope) (folded (fuel + 1) scope)
  foldedOperands : ∀ scope, Within (foldedOperands fuel scope) (foldedOperands (fuel + 1) scope)
  openBlock : ∀ scope kind, Within (openBlock fuel scope kind) (openBlock (fuel + 1) scope kind)

theorem bodiesWithin (fuel : Nat) : BodiesWithin fuel := by
  induction fuel with
  | zero =>
      exact ⟨fun _ => .outOfFuel _, fun _ => .outOfFuel _, fun _ => .outOfFuel _,
        fun _ => .outOfFuel _, fun _ _ => .outOfFuel _⟩
  | succ fuel ih =>
      constructor
      case sequence =>
        refine fun scope => .bind (.refl _) fun token => ?_
        split
        · exact .refl _
        · exact .bind (ih.instruction scope) fun _ => .bind (ih.sequence scope) fun _ => .refl _
      case instruction =>
        refine fun scope => .bind (.refl _) fun stream => ?_
        split
        · exact ih.folded scope
        · refine .bind (.refl _) fun token => ?_
          split
          · exact .bind (ih.openBlock scope _) fun _ => .refl _
          · exact .refl _
      case folded =>
        refine fun scope => .bind (.refl _) fun _ => .bind (.refl _) fun token => ?_
        split
        · exact .bind (ih.openBlock scope _) fun _ => .refl _
        · exact .bind (.refl _) fun _ => .bind (ih.foldedOperands scope) fun _ => .refl _
      case foldedOperands =>
        refine fun scope => .bind (.refl _) fun stream => ?_
        split
        · exact .bind (ih.folded scope) fun _ => .bind (ih.foldedOperands scope) fun _ => .refl _
        · exact .refl _
      case openBlock =>
        exact fun scope kind => .bind (.refl _) fun _ => .bind (.refl _) fun label =>
          .bind (.refl _) fun _ => .bind (ih.sequence _) fun _ => .refl _

/-- The fuel of a body is enough for it. -/
theorem sequence_not_starved {fuel : Nat} {scope : Scope} {stream : TokenStream}
    (enough : 3 * (stream.ahead.length + 1) ≤ fuel) (span : Source.Span) :
    sequence fuel scope stream ≠ .error ⟨.outOfFuel, span⟩ := by
  intro starved
  have answers : Answers stream.shown (sequence fuel scope) stream :=
    (bodiesAnswer fuel).phrase .sequence enough
  obtain ⟨token, -, blamed⟩ := (answers.concerns (List.Subset.refl _) starved).blames
  exact blamed.2

theorem sequence_of_enough {fuel : Nat} {scope : Scope} {stream : TokenStream}
    (enough : 3 * (stream.ahead.length + 1) ≤ fuel) :
    sequence fuel scope stream = sequence (3 * (stream.ahead.length + 1)) scope stream := by
  induction fuel, enough using Nat.le_induction with
  | base => rfl
  | succ fuel enough ih =>
      obtain ⟨span, starved⟩ | same := (bodiesWithin fuel).sequence scope stream
      · exact absurd starved (sequence_not_starved enough span)
      · exact same.symm.trans ih

end Reader

namespace Builder

/-- The builders of the grammar, apart from the first pass as a whole. -/
inductive Listed : {α : Type} → Builder α → Prop where
  | reader {α : Type} {reader : Reader α} (listed : Reader.Listed reader) : Listed (liftM reader)
  | claim (space : IndexSpace) : Listed (claim space)
  | declareType (name : Option String) (signature : Signature) :
      Listed (declareType name signature)
  | typeDefinition : Listed typeDefinition
  | declareField : Listed declareField
  | declareFields (fuel : Nat) : Listed (declareFields fuel)
  | declaredType : Listed declaredType
  | typeUse : Listed typeUse
  | functionField (index typeIndex : Nat) (frame : Frame) (source : Option (String × String)) :
      Listed (functionField index typeIndex frame source)
  | function : Listed function
  | exportField : Listed exportField
  | importTarget (index : Nat) (kind : ExternalKind) : Listed (importTarget index kind)
  | importField : Listed importField
  | typeField : Listed typeField
  | skippedField (word : Option Keyword) : Listed (skippedField word)
  | field : Listed field
  | fields (fuel : Nat) : Listed (fields fuel)
  | module : Listed module

theorem Listed.takes {action : Builder α} (listed : Listed action) : Takes 0 action := by
  have any {α : Type} {action : Builder α} {least : Nat} (takes : Takes least action) :
      Takes 0 action :=
    fun declarations => (takes declarations).mono (Nat.zero_le _)
  cases listed with
  | reader listed => exact .lift listed.takes
  | claim space => exact claim_takes
  | declareType name signature => exact declareType_takes
  | typeDefinition => exact any typeDefinition_takes
  | declareField => exact any declareField_takes
  | declareFields fuel => exact declareFields_takes fuel
  | declaredType => exact any declaredType_takes
  | typeUse => exact typeUse_takes
  | functionField index typeIndex frame source => exact any functionField_takes
  | function => exact any function_takes
  | exportField => exact any exportField_takes
  | importTarget index kind => exact any importTarget_takes
  | importField => exact any importField_takes
  | typeField => exact any typeField_takes
  | skippedField word => exact any skippedField_takes
  | field => exact any field_takes
  | fields fuel => exact fields_takes fuel
  | module => exact any module_takes

/-- What follows a builder need only be the same where the builder arrives. -/
theorem bind_congr_of_ok {first : Builder α} {next other : α → Builder β}
    {declarations : Declarations} {stream : TokenStream}
    (same : ∀ value middle after, first declarations stream = .ok ((value, middle), after) →
      next value middle after = other value middle after) :
    (first >>= next) declarations stream = (first >>= other) declarations stream := by
  rw [bind_apply, bind_apply]
  cases begun : first declarations stream with
  | error error => rfl
  | ok result => exact same result.1.1 result.1.2 result.2 begun

theorem declareFields_of_enough {fuel more : Nat} {declarations : Declarations}
    {stream : TokenStream} (enough : stream.ahead.length < fuel)
    (plenty : stream.ahead.length < more) :
    declareFields fuel declarations stream = declareFields more declarations stream := by
  induction fuel generalizing more declarations stream with
  | zero => cases enough
  | succ fuel ih =>
      obtain ⟨more, rfl⟩ : ∃ less, more = less + 1 := Nat.exists_eq_add_of_le' (by omega)
      rw [declareFields, declareFields]
      refine bind_congr_of_ok fun shown middle between gets => ?_
      cases gets
      split
      · refine bind_congr_of_ok fun _ middle after declared => ?_
        have shorter := (declareField_takes declarations declared).shorter
        exact ih (by omega) (by omega)
      · rfl

theorem fields_of_enough {fuel more : Nat} {declarations : Declarations}
    {stream : TokenStream} (enough : stream.ahead.length < fuel)
    (plenty : stream.ahead.length < more) :
    fields fuel declarations stream = fields more declarations stream := by
  induction fuel generalizing more declarations stream with
  | zero => cases enough
  | succ fuel ih =>
      obtain ⟨more, rfl⟩ : ∃ less, more = less + 1 := Nat.exists_eq_add_of_le' (by omega)
      rw [fields, fields]
      refine bind_congr_of_ok fun shown middle between gets => ?_
      cases gets
      split
      · -- A field takes a token, so that the rest needs less fuel.
        refine bind_congr_of_ok fun first middle after taken => ?_
        have shorter := (field_takes declarations taken).shorter
        have same : fields fuel middle after = fields more middle after :=
          ih (by omega) (by omega)
        rw [bind_apply, bind_apply, same]
      · rfl

end Builder

namespace Module

theorem ofTokens_not_starved (tokens : List Token) :
    (∃ module, ofTokens tokens = .ok module) ∨
      ∃ error, ofTokens tokens = .error error ∧ error.fault ≠ .outOfFuel := by
  cases read : ofTokens tokens with
  | ok module => exact .inl ⟨module, rfl⟩
  | error error =>
      refine .inr ⟨error, rfl, fun starved => ?_⟩
      obtain ⟨token, -, -, blamed⟩ := (ofTokens_concerns read).blames
      rw [starved] at blamed
      exact blamed

/-- Reading makes progress and ends on every list of tokens, wherever the end of
input is in it.  It gives a module or an error that is not about fuel; as many
steps as a multiple of the tokens that are left are enough for the readers that
count them, and more make no difference.  The reader of a field, that of a type
definition and those of an instruction, flat or folded, a block or not, take a
token wherever they succeed.  No reader passes an end of input or goes back, and
the first pass over the fields is put back to where it began. -/
theorem reading_progresses :
    (∀ tokens, (∃ module, ofTokens tokens = .ok module) ∨
      ∃ error, ofTokens tokens = .error error ∧ error.fault ≠ .outOfFuel) ∧
    (∀ scope (stream : TokenStream) fuel, 3 * (stream.ahead.length + 1) ≤ fuel →
      Reader.sequence fuel scope stream =
          Reader.sequence (3 * (stream.ahead.length + 1)) scope stream ∧
        ∀ span, Reader.sequence fuel scope stream ≠ .error ⟨.outOfFuel, span⟩) ∧
    (∀ declarations (stream : TokenStream) fuel, stream.ahead.length < fuel →
      Builder.declareFields fuel declarations stream =
          Builder.declareFields (stream.ahead.length + 1) declarations stream ∧
        Builder.fields fuel declarations stream =
          Builder.fields (stream.ahead.length + 1) declarations stream) ∧
    (Builder.Takes 1 Builder.field ∧ Builder.Takes 1 Builder.typeDefinition ∧
      ∀ fuel scope, Reader.Takes 1 (Reader.instruction fuel scope) ∧
        Reader.Takes 1 (Reader.folded fuel scope) ∧ Reader.Takes 1 (Reader.plain scope)) ∧
    (∀ (α : Type) (action : Builder α), Builder.Listed action → Builder.Takes 0 action) ∧
    (∀ declarations final stream rest,
      Builder.declareAll declarations stream = .ok (((), final), rest) → rest = stream) := by
  refine ⟨ofTokens_not_starved, ?_, ?_, ⟨Builder.field_takes, Builder.typeDefinition_takes, ?_⟩,
    fun _ _ listed => listed.takes, ?_⟩
  · intro scope stream fuel enough
    exact ⟨Reader.sequence_of_enough enough, Reader.sequence_not_starved enough⟩
  · intro declarations stream fuel enough
    have least := Nat.lt_succ_self stream.ahead.length
    exact ⟨Builder.declareFields_of_enough enough least, Builder.fields_of_enough enough least⟩
  · intro fuel scope
    have bodies := Reader.bodiesTake fuel
    exact ⟨bodies.instruction scope, bodies.folded scope, Reader.plain_takes⟩
  · intro declarations final stream rest run
    exact (Builder.declareAll_eq_ok run).1

-- The end of input in the middle is not passed.
example : ofTokens [⟨.leftParen, "(", ⟨0, 1, 1, 1⟩⟩, .endAt ⟨1, 1, 1, 2⟩,
      ⟨.keyword .moduleForm, "module", ⟨1, 7, 1, 2⟩⟩, ⟨.rightParen, ")", ⟨7, 8, 1, 8⟩⟩] =
    .error ⟨.unexpected (.keyword .moduleForm) .endOfInput, ⟨1, 1, 1, 2⟩⟩ :=
  rfl

end Module

end WatMachine
