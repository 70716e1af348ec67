import WatMachine.Grammar.Module
import WatMachine.Proofs.Grammar.Relocation

/-!
# Modules from the kinds of tokens

The builders of modules look at the kinds of tokens only, as readers do.
Tokens of the same kinds are accepted together or rejected together, the
modules are the same but for the places of their instructions, and a place in
one module or error stands for the same token as the place in the other.
-/

namespace WatMachine

open TokenStream Instruction Source

section Alike

variable (places : Span → Span → Prop)

structure FieldsAlike (fields others : List Field) : Prop where
  unplaced : fields.map Field.unplaced = others.map Field.unplaced
  spans : List.Forall₂ places (fields.flatMap Field.spans) (others.flatMap Field.spans)

/-- Whether two modules are the same but for the places of their instructions,
which are related one by one. -/
structure Module.Alike (module other : Module) : Prop where
  unplaced : module.unplaced = other.unplaced
  spans : List.Forall₂ places module.spans other.spans

end Alike

variable {places : Span → Span → Prop}

theorem TokenStream.Alike.definition? {stream other : TokenStream}
    (alike : stream.Alike places other) :
    stream.definition? = other.definition? := by
  simp only [TokenStream.definition?, (alike.nth _).kind]

namespace FieldsAlike

variable {fields more others rest : List Field}

/-- Fields without instructions have no places. -/
theorem of_bodiless (bodiless : fields.flatMap Field.spans = []) :
    FieldsAlike places fields fields := by
  refine ⟨rfl, ?_⟩
  rw [bodiless]
  exact .nil

theorem append (first : FieldsAlike places fields others) (second : FieldsAlike places more rest) :
    FieldsAlike places (fields ++ more) (others ++ rest) := by
  constructor
  · rw [List.map_append, List.map_append, first.unplaced, second.unplaced]
  · rw [List.flatMap_append, List.flatMap_append]
    exact List.rel_append first.spans second.spans

theorem function {code other : List Instruction} (inner : CodeAlike places code other)
    (index typeIndex : Nat) (frame : Frame) :
    FieldsAlike places [.function ⟨index, typeIndex, frame, code⟩]
      [.function ⟨index, typeIndex, frame, other⟩] := by
  constructor
  · simp only [List.map_singleton, Field.unplaced, FunctionDefinition.unplaced, inner.unplaced]
  · simpa only [List.flatMap_singleton, Field.spans] using inner.spans

end FieldsAlike

namespace Builder

open Reader (Agree)

variable {α β : Type}

/-- Whether two builders agree among the same declarations, and leave the same
ones. -/
def Agrees (places : Span → Span → Prop) (related : α → α → Prop) (builder other : Builder α) :
    Prop :=
  ∀ declarations, Agree places (fun first second => related first.1 second.1 ∧ first.2 = second.2)
    (builder declarations) (other declarations)

namespace Agrees

variable {related : α → α → Prop} {resembling : β → β → Prop}

theorem pure {value other : α} (same : related value other) :
    Agrees places related (pure value) (pure other) :=
  fun _ => .pure ⟨same, rfl⟩

theorem bind {first second : Builder α} {next after : α → Builder β}
    (firsts : Agrees places related first second)
    (nexts : ∀ value other, related value other →
      Agrees places resembling (next value) (after other)) :
    Agrees places resembling (first >>= next) (second >>= after) := by
  intro declarations
  change Agree places _ (first declarations >>= fun (value, left) => next value left)
    (second declarations >>= fun (value, left) => after value left)
  refine (firsts declarations).bind ?_
  rintro ⟨value, left⟩ ⟨other, _⟩ ⟨same, rfl⟩
  exact nexts value other same left

theorem lift {reader other : Reader α} (agree : Agree places related reader other) :
    Agrees places related (liftM reader) (liftM other) := by
  intro declarations
  change Agree places _ (reader >>= fun value => Pure.pure (value, declarations))
    (other >>= fun value => Pure.pure (value, declarations))
  exact agree.bind fun _ _ same => .pure ⟨same, rfl⟩

theorem map {first second : Builder α} {change alter : α → β}
    (firsts : Agrees places related first second)
    (changes : ∀ value other, related value other → resembling (change value) (alter other)) :
    Agrees places resembling (change <$> first) (alter <$> second) := by
  rw [← bind_pure_comp, ← bind_pure_comp]
  exact firsts.bind fun value other same => .pure (changes value other same)

theorem getStream : Agrees places (Alike places) (getThe TokenStream) (getThe TokenStream) :=
  lift Agree.get

theorem get : Agrees places Eq (MonadState.get : Builder Declarations) MonadState.get :=
  fun _ => .pure ⟨rfl, rfl⟩

theorem set (declarations : Declarations) :
    Agrees places Eq (MonadStateOf.set declarations : Builder PUnit)
      (MonadStateOf.set declarations) :=
  fun _ => .pure ⟨rfl, rfl⟩

end Agrees

theorem claim_agrees (space : IndexSpace) : Agrees places Eq (claim space) (claim space) := by
  refine Agrees.get.bind ?_
  rintro declarations _ rfl
  exact (Agrees.set _).bind fun _ _ _ => .pure rfl

theorem declareType_agrees (name : Option String) (signature : Signature) :
    Agrees places Eq (declareType name signature) (declareType name signature) := by
  refine Agrees.get.bind ?_
  rintro declarations _ rfl
  exact (Agrees.set _).bind fun _ _ _ => .pure rfl

theorem typeDefinition_agrees : Agrees places Eq typeDefinition typeDefinition := by
  refine (Agrees.lift (Reader.openGroup_agree _)).bind fun _ _ _ => ?_
  refine (Agrees.lift Reader.identifier?_agree).bind ?_
  rintro name _ rfl
  refine (Agrees.lift (Reader.openGroup_agree _)).bind fun _ _ _ => ?_
  refine (Agrees.lift (Reader.bindings_agree _)).bind ?_
  rintro params _ rfl
  refine (Agrees.lift Reader.results_agree).bind ?_
  rintro results _ rfl
  refine (Agrees.lift Reader.rightParen_agree).bind fun _ _ _ => ?_
  refine (Agrees.lift Reader.rightParen_agree).bind fun _ _ _ => ?_
  refine (declareType_agrees _ _).bind ?_
  rintro index _ rfl
  exact .pure rfl

theorem declareField_agrees : Agrees places Eq declareField declareField := by
  refine Agrees.getStream.bind fun stream copy alike => ?_
  rw [alike.atGroup, alike.definition?]
  split
  · refine typeDefinition_agrees.bind ?_
    rintro definition _ rfl
    exact fun _ => .pure ⟨rfl, rfl⟩
  · cases copy.definition? with
    | none => exact .lift Reader.skipGroup_agree
    | some definition =>
        have declares : Agrees places Eq
            (modify (·.declare definition.1 definition.2) : Builder PUnit)
            (modify (·.declare definition.1 definition.2)) := fun _ => .pure ⟨rfl, rfl⟩
        exact declares.bind fun _ _ _ => .lift Reader.skipGroup_agree

theorem declareFields_agrees (fuel : Nat) :
    Agrees places Eq (declareFields fuel) (declareFields fuel) := by
  induction fuel with
  | zero => exact .lift .outOfFuel
  | succ fuel ih =>
      refine Agrees.getStream.bind fun stream copy alike => ?_
      rw [alike.atLeftParen]
      split
      · exact declareField_agrees.bind fun _ _ _ => ih
      · exact .pure rfl

theorem declareAll_agrees : Agrees places Eq declareAll declareAll := by
  refine Agrees.getStream.bind fun stream copy alike => ?_
  rw [alike.length]
  exact (declareFields_agrees _).bind fun _ _ _ => .lift (.set alike)

theorem declaredType_agrees : Agrees places Eq declaredType declaredType := by
  refine Agrees.get.bind ?_
  rintro declarations _ rfl
  refine (Agrees.lift (Reader.openGroup_agree _)).bind fun _ _ _ => ?_
  refine (Agrees.lift (Reader.definitionIndex_agree _ _ _)).bind ?_
  rintro ⟨index, span⟩ ⟨_, place⟩ ⟨rfl, here⟩
  cases found : declarations.signatures[index]? with
  | some signature =>
      simp only [found]
      exact (Agrees.lift Reader.rightParen_agree).bind fun _ _ _ => .pure rfl
  | none =>
      simp only [found]
      exact .lift (.fail here _)

theorem typeUse_agrees : Agrees places Eq typeUse typeUse := by
  have typed : Agrees places Eq (some <$> declaredType) (some <$> declaredType) :=
    declaredType_agrees.map fun _ _ => congrArg some
  have untyped : Agrees places Eq (pure none : Builder (Option (Nat × Signature)))
      (pure none) := .pure rfl
  refine Agrees.getStream.bind fun stream copy alike => ?_
  rw [alike.atGroup]
  split <;> first | refine typed.bind ?_ | refine untyped.bind ?_
  all_goals
    rintro declared _ rfl
    refine (Agrees.lift (Reader.bindings_agree _)).bind ?_
    rintro params _ rfl
    refine (Agrees.lift Reader.results_agree).bind ?_
    rintro results _ rfl
    cases declared with
    | none =>
        refine (declareType_agrees _ _).bind ?_
        rintro index _ rfl
        exact .pure rfl
    | some type =>
        dsimp only
        split <;> exact .pure rfl

theorem inlineExport_agree : Agree places Eq inlineExport inlineExport :=
  (Reader.openGroup_agree _).bind fun _ _ _ => Reader.string_agree.bind fun _ _ same =>
    Reader.rightParen_agree.bind fun _ _ _ => .pure same

theorem inlineImport_agree : Agree places Eq inlineImport inlineImport := by
  refine (Reader.openGroup_agree _).bind fun _ _ _ => Reader.string_agree.bind ?_
  rintro source _ rfl
  exact Reader.string_agree.bind fun _ _ same => Reader.rightParen_agree.bind fun _ _ _ =>
    .pure (congrArg _ same)

theorem functionField_agrees (index typeIndex : Nat) (frame : Frame)
    (source : Option (String × String)) :
    Agrees places (fun field other => FieldsAlike places [field] [other])
      (functionField index typeIndex frame source)
      (functionField index typeIndex frame source) := by
  cases source with
  | some names =>
      exact (Agrees.lift Reader.rightParen_agree).bind fun _ _ _ => .pure (.of_bodiless rfl)
  | none =>
      refine (Agrees.lift (Reader.bindings_agree _)).bind ?_
      rintro locals _ rfl
      refine Agrees.get.bind ?_
      rintro declarations _ rfl
      refine (Agrees.lift (Reader.body_agree _ _)).bind fun body _ inner => ?_
      exact (Agrees.lift Reader.rightParen_agree).bind fun _ _ _ => .pure (.function inner _ _ _)

theorem function_agrees :
    Agrees places (FieldsAlike places) function function := by
  refine (Agrees.lift (Reader.openGroup_agree _)).bind fun _ _ _ => ?_
  refine (claim_agrees _).bind ?_
  rintro index _ rfl
  refine (Agrees.lift Reader.identifier?_agree).bind fun _ _ _ => ?_
  refine (Agrees.lift (Reader.many_agree (Alike.atGroup · .exportForm) inlineExport_agree)).bind ?_
  rintro names _ rfl
  have followed (source : Option (String × String)) :
      Agrees places (FieldsAlike places) (do
        let used ← typeUse
        let field ← functionField index used.1 used.2 source
        return field :: names.map fun name => .exported ⟨name, .function, index⟩) (do
        let used ← typeUse
        let field ← functionField index used.1 used.2 source
        return field :: names.map fun name => .exported ⟨name, .function, index⟩) := by
    refine typeUse_agrees.bind ?_
    rintro ⟨typeIndex, frame⟩ _ rfl
    refine (functionField_agrees index typeIndex frame source).bind fun field _ same => .pure ?_
    exact same.append (.of_bodiless (by simp [Field.spans]))
  refine Agrees.getStream.bind fun stream copy alike => ?_
  rw [alike.atGroup]
  split
  · refine (Agrees.map (.lift inlineImport_agree) fun _ _ => congrArg some).bind ?_
    rintro source _ rfl
    exact followed source
  · exact followed none

theorem externalKind_agree (expected : Expectation) :
    Agree places Eq (externalKind expected) (externalKind expected) :=
  (Reader.accept_agree _ _).bind fun _ _ same => .pure same.1

theorem exportField_agrees : Agrees places Eq exportField exportField := by
  refine (Agrees.lift (Reader.openGroup_agree _)).bind fun _ _ _ => ?_
  refine (Agrees.lift Reader.string_agree).bind ?_
  rintro name _ rfl
  refine (Agrees.lift Reader.leftParen_agree).bind fun _ _ _ => ?_
  refine (Agrees.lift (externalKind_agree _)).bind ?_
  rintro kind _ rfl
  refine Agrees.get.bind ?_
  rintro declarations _ rfl
  refine (Agrees.lift (Reader.definitionIndex_agree _ _ _)).bind ?_
  rintro ⟨index, span⟩ ⟨_, place⟩ ⟨rfl, _⟩
  refine (Agrees.lift Reader.rightParen_agree).bind fun _ _ _ => ?_
  exact (Agrees.lift Reader.rightParen_agree).bind fun _ _ _ => .pure rfl

theorem limits_agree : Agree places Eq limits limits := by
  refine (Reader.natural_agree _).bind ?_
  rintro min _ rfl
  refine Reader.current_agree.bind fun token other same => ?_
  rw [same.kind]
  cases other.kind with
  | integer value =>
      exact (Reader.natural_agree _).bind fun _ _ same => .pure (by rw [same])
  | _ => exact .pure rfl

theorem importTarget_agrees (index : Nat) (kind : ExternalKind) :
    Agrees places Eq (importTarget index kind) (importTarget index kind) := by
  cases kind with
  | function =>
      refine (Agrees.lift Reader.identifier?_agree).bind fun _ _ _ => typeUse_agrees.bind ?_
      rintro ⟨typeIndex, frame⟩ _ rfl
      exact (Agrees.lift Reader.rightParen_agree).bind fun _ _ _ => .pure rfl
  | memory =>
      refine (Agrees.lift Reader.identifier?_agree).bind fun _ _ _ => ?_
      refine (Agrees.lift limits_agree).bind ?_
      rintro limits _ rfl
      exact (Agrees.lift Reader.rightParen_agree).bind fun _ _ _ => .pure rfl
  | table => exact (Agrees.lift Reader.closeGroup_agree).bind fun _ _ _ => .pure rfl
  | global => exact (Agrees.lift Reader.closeGroup_agree).bind fun _ _ _ => .pure rfl

theorem importField_agrees : Agrees places Eq importField importField := by
  refine (Agrees.lift (Reader.openGroup_agree _)).bind fun _ _ _ => ?_
  refine (Agrees.lift Reader.string_agree).bind ?_
  rintro source _ rfl
  refine (Agrees.lift Reader.string_agree).bind ?_
  rintro name _ rfl
  refine (Agrees.lift Reader.leftParen_agree).bind fun _ _ _ => ?_
  refine (Agrees.lift (externalKind_agree _)).bind ?_
  rintro kind _ rfl
  refine (claim_agrees _).bind ?_
  rintro index _ rfl
  refine (importTarget_agrees index kind).bind ?_
  rintro target _ rfl
  exact (Agrees.lift Reader.rightParen_agree).bind fun _ _ _ => .pure rfl

theorem typeField_agrees : Agrees places Eq typeField typeField := by
  refine Agrees.get.bind ?_
  rintro declarations _ rfl
  cases declarations.pendingTypes with
  | nil =>
      exact .lift (.unexpected _)
  | cons definition pendingTypes =>
      exact (Agrees.set _).bind fun _ _ _ =>
        (Agrees.lift Reader.skipGroup_agree).bind fun _ _ _ => .pure rfl

theorem skippedField_agrees (word : Option Keyword) :
    Agrees places Eq (skippedField word) (skippedField word) := by
  unfold skippedField
  cases word.bind IndexSpace.ofKeyword? with
  | none => exact .lift Reader.skipGroup_agree
  | some space => exact (claim_agrees space).bind fun _ _ _ => .lift Reader.skipGroup_agree

theorem field_agrees :
    Agrees places (FieldsAlike places) field field := by
  refine Agrees.getStream.bind fun stream copy alike => ?_
  rw [(alike.nth 1).kind]
  split
  · exact function_agrees
  · refine exportField_agrees.bind ?_
    rintro target _ rfl
    exact .pure (.of_bodiless rfl)
  · refine importField_agrees.bind ?_
    rintro declaration _ rfl
    exact .pure (.of_bodiless rfl)
  · refine typeField_agrees.bind ?_
    rintro definition _ rfl
    exact .pure (.of_bodiless rfl)
  · exact (skippedField_agrees _).bind fun _ _ _ => .pure (.of_bodiless rfl)

theorem fields_agrees (fuel : Nat) :
    Agrees places (FieldsAlike places) (fields fuel) (fields fuel) := by
  induction fuel with
  | zero => exact .lift .outOfFuel
  | succ fuel ih =>
      refine Agrees.getStream.bind fun stream copy alike => ?_
      rw [alike.atLeftParen]
      split
      · exact field_agrees.bind fun first _ begun => ih.bind fun rest _ followed =>
          .pure (begun.append followed)
      · exact .pure (.of_bodiless rfl)

theorem module_agrees : Agrees places (Module.Alike places) module module := by
  refine (Agrees.lift (Reader.openGroup_agree _)).bind fun _ _ _ => ?_
  refine (Agrees.lift Reader.identifier?_agree).bind ?_
  rintro id _ rfl
  refine declareAll_agrees.bind fun _ _ _ => Agrees.getStream.bind fun stream copy alike => ?_
  rw [alike.length]
  refine (fields_agrees _).bind fun fields others same => ?_
  refine (Agrees.lift Reader.rightParen_agree).bind fun _ _ _ => ?_
  refine (Agrees.lift Reader.current_agree).bind fun token other alike => ?_
  have ends : token.isEnd = other.isEnd := by rw [Token.isEnd, Token.isEnd, alike.kind]
  rw [ends]
  split
  · refine Agrees.get.bind ?_
    rintro declarations _ rfl
    exact .pure ⟨by simp only [Module.unplaced, same.unplaced], same.spans⟩
  · exact .lift (.unexpected _)

end Builder

namespace TokenStream

/-- Tokens up to the end of the input, which is added just behind them if it
is missing. -/
def ended (tokens : List Token) : List Token :=
  if tokens.getLast?.any Token.isEnd then tokens
  else tokens ++ [.endAt (tokens.getLast?.elim .origin (·.span.behind))]

/-- Whether two places are those of tokens at the same position. -/
def SamePosition (tokens others : List Token) (span place : Span) : Prop :=
  ∃ (position : Nat) (token other : Token), (ended tokens)[position]? = some token ∧
    (ended others)[position]? = some other ∧ token.span = span ∧ other.span = place

theorem ended_concat (front : List Token) (last : Token) :
    ended (front ++ [last]) =
      if last.isEnd then front ++ [last] else front ++ [last] ++ [.endAt last.span.behind] := by
  simp [ended]

/-- A stream shows these tokens, and the last of them over and over. -/
theorem exists_ended (tokens : List Token) :
    ∃ last, ended tokens = (ofTokens tokens).ahead ++ [last] ∧ last.kind = .endOfInput ∧
      last.span = (ofTokens tokens).finish := by
  rcases List.eq_nil_or_concat tokens with rfl | ⟨front, last, rfl⟩
  · exact ⟨.endAt .origin, rfl, rfl, rfl⟩
  · rw [List.concat_eq_append, ended_concat, ofTokens_concat]
    cases ends : last.isEnd with
    | true => exact ⟨last, rfl, beq_iff_eq.mp ends, rfl⟩
    | false => exact ⟨.endAt last.span.behind, rfl, rfl, rfl⟩

theorem ended_kinds (tokens : List Token) :
    (ended tokens).map Token.kind =
      if (tokens.map Token.kind).getLast?.any (· == .endOfInput) then tokens.map Token.kind
      else tokens.map Token.kind ++ [.endOfInput] := by
  have ends : tokens.getLast?.any Token.isEnd =
      (tokens.map Token.kind).getLast?.any (· == .endOfInput) := by
    rw [List.getLast?_map, Option.any_map]
    rfl
  rw [ended, ends]
  split
  · rfl
  · rw [List.map_append]
    rfl

/-- Streams of tokens of the same kinds are alike, position by position. -/
theorem alike_ofTokens {tokens others : List Token}
    (kinds : tokens.map Token.kind = others.map Token.kind) :
    (ofTokens tokens).Alike (SamePosition tokens others) (ofTokens others) := by
  obtain ⟨last, shape, -, ends⟩ := exists_ended tokens
  obtain ⟨stop, alsoShape, -, alsoEnds⟩ := exists_ended others
  have ahead : (ofTokens tokens).ahead.map Token.kind = (ofTokens others).ahead.map Token.kind := by
    have all : (ended tokens).map Token.kind = (ended others).map Token.kind := by
      rw [ended_kinds, ended_kinds, kinds]
    rw [shape, alsoShape, List.map_append, List.map_append] at all
    exact List.append_inj_left' all rfl
  have count : (ofTokens tokens).ahead.length = (ofTokens others).ahead.length := by
    simpa using congrArg List.length ahead
  constructor
  · rw [List.forall₂_iff_get]
    refine ⟨count, fun position inside alsoInside => ⟨?_, position, _, _, ?_, ?_, rfl, rfl⟩⟩
    · have here := congrArg (·[position]?) ahead
      simpa [inside, alsoInside] using here
    · rw [shape, List.getElem?_append_left inside]
      exact List.getElem?_eq_getElem inside
    · rw [alsoShape, List.getElem?_append_left alsoInside]
      exact List.getElem?_eq_getElem alsoInside
  · refine ⟨(ofTokens tokens).ahead.length, last, stop, ?_, ?_, ends, alsoEnds⟩
    · rw [shape, List.getElem?_concat_length]
    · rw [alsoShape, count, List.getElem?_concat_length]

end TokenStream

namespace Module

theorem ofStream_agreement {stream other : TokenStream} (alike : stream.Alike places other) :
    Agreement places (Module.Alike places) (ofStream stream) (ofStream other) := by
  have unfolded (stream : TokenStream) :
      ofStream stream = (Builder.module .empty stream).map fun result => result.1.1 := by
    have run : ofStream stream =
        (Builder.module .empty stream).bind fun result => .ok result.1.1 := rfl
    rw [run]
    cases Builder.module .empty stream <;> rfl
  have read := Builder.module_agrees .empty stream other alike
  rw [unfolded, unfolded]
  generalize Builder.module .empty stream = one, Builder.module .empty other = two at read
  cases read with
  | rejected fault place => exact .rejected fault place
  | accepted same => exact .accepted same.1.1

theorem ofTokens_agreement {tokens others : List Token}
    (kinds : tokens.map Token.kind = others.map Token.kind) :
    Agreement (SamePosition tokens others) (Module.Alike (SamePosition tokens others))
      (ofTokens tokens) (ofTokens others) :=
  ofStream_agreement (alike_ofTokens kinds)

/-- Tokens of the same kinds are read as modules that differ in places only. -/
theorem ofTokens_alike {tokens others : List Token} {module : Module}
    (alike : tokens.map Token.kind = others.map Token.kind)
    (accepted : ofTokens tokens = .ok module) :
    ∃ copy, ofTokens others = .ok copy ∧ module.unplaced = copy.unplaced := by
  have agreement := ofTokens_agreement alike
  rw [accepted] at agreement
  obtain ⟨copy, read, same⟩ := agreement.exists_ok
  exact ⟨copy, read, same.unplaced⟩

end Module

end WatMachine
