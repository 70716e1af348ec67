import WatMachine.Proofs.Grammar.Blame
import WatMachine.Proofs.Grammar.Extents

/-!
# Readers move forward

A reader that succeeds leaves a stream that is a rest of the one it started
with, and no end of input is among the tokens in between: the end of input
stays in front of every reader that would read it.  Readers of forms that start
with a given token take at least that one.
-/

namespace WatMachine

open TokenStream

variable {α β : Type} {least more : Nat}

namespace TokenStream

/-- Whether another stream is what is left of a stream behind at least so many
tokens, none of which ends the input. -/
def MovesTo (least : Nat) (stream after : TokenStream) : Prop :=
  ∃ tokens, stream = after.prepend tokens ∧ least ≤ tokens.length ∧
    ∀ token ∈ tokens, token.isEnd = false

namespace MovesTo

variable {stream middle after : TokenStream}

theorem refl (stream : TokenStream) : stream.MovesTo 0 stream :=
  ⟨[], rfl, Nat.le_refl _, nofun⟩

theorem trans (first : stream.MovesTo least middle) (second : middle.MovesTo more after) :
    stream.MovesTo (least + more) after := by
  obtain ⟨front, rfl, enough, inside⟩ := first
  obtain ⟨back, rfl, further, behind⟩ := second
  refine ⟨front ++ back, (prepend_append _ _ _).symm, ?_, ?_⟩
  · rw [List.length_append]
    exact Nat.add_le_add enough further
  · exact List.forall_mem_append.mpr ⟨inside, behind⟩

theorem mono (moves : stream.MovesTo more after) (fewer : least ≤ more) :
    stream.MovesTo least after := by
  obtain ⟨tokens, shape, enough, inside⟩ := moves
  exact ⟨tokens, shape, Nat.le_trans fewer enough, inside⟩

theorem shorter (moves : stream.MovesTo 1 after) : after.ahead.length < stream.ahead.length := by
  obtain ⟨tokens, rfl, enough, -⟩ := moves
  rw [ahead_prepend, List.length_append]
  omega

end MovesTo

/-- The end of input is not passed. -/
theorem movesTo_advance (stream : TokenStream) : stream.MovesTo 0 stream.advance := by
  obtain ended | ⟨token, after, rfl, inside⟩ := stream.isEnd_or_exists_prepend
  · rw [advance, if_pos ended]
    exact .refl stream
  · rw [advance_prepend_of_not_end after inside]
    exact ⟨[token], rfl, Nat.zero_le _, by simpa using inside⟩

end TokenStream

namespace Reader

/-- Whether a reader, where it succeeds, takes at least so many tokens from the
front of the stream, and no end of input among them. -/
def Takes (least : Nat) (reader : Reader α) : Prop :=
  ∀ ⦃stream value after⦄, reader stream = .ok (value, after) → stream.MovesTo least after

namespace Takes

theorem mono {reader : Reader α} (takes : Takes more reader) (fewer : least ≤ more) :
    Takes least reader :=
  fun _ _ _ read => (takes read).mono fewer

theorem pure (value : α) : Takes 0 (pure value) := by
  intro stream value after read
  cases read
  exact .refl stream

theorem get : Takes 0 get := by
  intro stream value after read
  cases read
  exact .refl stream

theorem current : Takes 0 current := by
  intro stream value after read
  cases read
  exact .refl stream

theorem fail {fault : ParseFault} {span : Source.Span} :
    Takes least (fail fault span : Reader α) :=
  nofun

theorem unexpected {expected : Expectation} : Takes least (unexpected expected : Reader α) :=
  nofun

theorem outOfFuel : Takes least (outOfFuel : Reader α) :=
  nofun

theorem advance : Takes 0 advance := by
  intro stream value after read
  cases read
  exact stream.movesTo_advance

theorem bind {first : Reader α} {next : α → Reader β} (begins : Takes least first)
    (goesOn : ∀ value, Takes more (next value)) : Takes (least + more) (first >>= next) := by
  intro stream value after read
  obtain ⟨taken, middle, begun, continued⟩ := bind_eq_ok.mp read
  exact (begins begun).trans (goesOn taken continued)

/-- What a reader takes is taken whatever follows it. -/
theorem andThen {first : Reader α} {next : α → Reader β} (begins : Takes least first)
    (goesOn : ∀ value, Takes more (next value)) : Takes least (first >>= next) :=
  (begins.bind goesOn).mono (Nat.le_add_right _ _)

theorem before {first : Reader α} {next : α → Reader β} (begins : Takes more first)
    (goesOn : ∀ value, Takes least (next value)) : Takes least (first >>= next) :=
  (begins.bind goesOn).mono (Nat.le_add_left _ _)

theorem map {reader : Reader α} {change : α → β} (takes : Takes least reader) :
    Takes least (change <$> reader) := by
  rw [← bind_pure_comp]
  exact takes.andThen fun _ => .pure _

theorem many {here : TokenStream → Bool} {item : Reader α} (items : Takes least item) :
    Takes 0 (many here item) := by
  refine .before .get fun stream => ?_
  generalize stream.ahead = clock
  induction clock with
  | nil =>
      refine .before .get fun stream => ?_
      split
      · exact .outOfFuel
      · exact .pure _
  | cons _ clock ih =>
      refine .before .get fun stream => ?_
      split
      · exact .before items fun _ => .before ih fun _ => .pure _
      · exact .pure _

end Takes

section Tokens

/-- A token is taken if it is asked for, but the end of input even then is
not. -/
theorem accept_takes {expected : Expectation} {select : TokenKind → Option α} :
    Takes 0 (accept expected select) := by
  refine .before .current fun token => ?_
  split
  · exact .before .advance fun _ => .pure _
  · exact .unexpected

theorem accept_takes_one {expected : Expectation} {select : TokenKind → Option α}
    (passes : select .endOfInput = none) : Takes 1 (accept expected select) := by
  rintro stream ⟨value, span⟩ after read
  obtain ⟨tokens, shape, -, inside⟩ := accept_takes read
  obtain ⟨token, rfl, -⟩ := (accept_eq_ok passes).mp read
  obtain rfl := prepend_inj.mp shape
  exact ⟨[token], rfl, Nat.le_refl _, inside⟩

theorem acceptKind_takes {expected : Expectation} {kind : TokenKind} :
    Takes 0 (acceptKind expected kind) :=
  .before accept_takes fun _ => .pure _

theorem acceptKind_takes_one {expected : Expectation} {kind : TokenKind}
    (continues : kind ≠ .endOfInput) : Takes 1 (acceptKind expected kind) :=
  .andThen (accept_takes_one (if_neg continues.symm)) fun _ => .pure _

theorem leftParen_takes : Takes 1 leftParen :=
  acceptKind_takes_one nofun

theorem rightParen_takes : Takes 1 rightParen :=
  acceptKind_takes_one nofun

theorem keyword_takes {word : Keyword} : Takes 1 (keyword word) :=
  acceptKind_takes_one nofun

theorem openGroup_takes {word : Keyword} : Takes 1 (openGroup word) :=
  .andThen leftParen_takes fun _ => keyword_takes

theorem string_takes : Takes 1 string :=
  .andThen (accept_takes_one rfl) fun _ => .pure _

theorem integer_takes : Takes 1 integer :=
  accept_takes_one rfl

theorem natural_takes {expected : Expectation} : Takes 1 (natural expected) :=
  .andThen (accept_takes_one rfl) fun _ => .pure _

theorem valueType_takes : Takes 1 valueType :=
  .andThen (accept_takes_one rfl) fun _ => .pure _

theorem identifier?_takes : Takes 0 identifier? := by
  refine .before .current fun token => ?_
  split
  · exact .before .advance fun _ => .pure _
  · exact .pure _

theorem resolved_takes {expected : Expectation} {referent : Referent}
    {resolve : Identifier → Option Nat} : Takes 1 (resolved expected referent resolve) := by
  refine .andThen (accept_takes_one rfl) fun (identifier, span) => (?_ : Takes 0 _)
  dsimp only
  split
  · exact .pure _
  · exact .fail

theorem closeGroup_takes : Takes 1 closeGroup := by
  intro stream _ after read
  obtain ⟨inner, right, rfl, balanced, closed⟩ := closeGroup_eq_ok.mp read
  refine ⟨inner ++ [right], rfl, by simp, List.forall_mem_append.mpr ⟨balanced.not_isEnd, ?_⟩⟩
  simp [Token.isEnd, closed]

theorem skipGroup_takes : Takes 1 skipGroup :=
  .andThen leftParen_takes fun _ => closeGroup_takes

end Tokens

section Signatures

variable {word : Keyword}

theorem valueTypes_takes : Takes 0 valueTypes :=
  .many valueType_takes

theorem groupBindings_takes : Takes 0 groupBindings := by
  refine .before .get fun stream => ?_
  split
  · exact .before valueTypes_takes fun _ => .pure _
  · refine .before identifier?_takes fun name => .before .get fun stream => ?_
    split
    · exact .before valueType_takes fun _ => .pure _
    · exact .pure _

theorem bindingGroup_takes : Takes 1 (bindingGroup word) :=
  .andThen openGroup_takes fun _ => .before groupBindings_takes fun _ =>
    .andThen rightParen_takes fun _ => .pure _

theorem bindings_takes : Takes 0 (bindings word) :=
  .before (.many bindingGroup_takes) fun _ => .pure _

theorem resultGroup_takes : Takes 1 resultGroup :=
  .andThen openGroup_takes fun _ => .before valueTypes_takes fun _ =>
    .andThen rightParen_takes fun _ => .pure _

theorem results_takes : Takes 0 results :=
  .before (.many resultGroup_takes) fun _ => .pure _

end Signatures

section Bodies

variable {scope : Scope}

theorem definitionIndex_takes {environment : Environment} {expected : Expectation}
    {space : IndexSpace} : Takes 1 (definitionIndex environment expected space) :=
  resolved_takes

theorem typeOperand_takes : Takes 1 (typeOperand scope) :=
  .andThen openGroup_takes fun _ => .andThen definitionIndex_takes fun _ =>
    .andThen rightParen_takes fun _ => .pure _

theorem indirectType_takes : Takes 0 (indirectType scope) := by
  have skips (operand : Option Operand) :
      Takes 0 (many atSignatureGroup skipGroup >>= fun _ => pure operand) :=
    .before (.many skipGroup_takes) fun _ => .pure _
  refine .before .get fun stream => ?_
  split
  · exact .before typeOperand_takes.map skips
  · exact .before (.pure none) skips

theorem word32_takes : Takes 1 word32 := by
  refine .andThen integer_takes fun found => (?_ : Takes 0 _)
  dsimp only
  split
  · exact .pure _
  · exact .fail

theorem operand_takes {opcode : Keyword} : Takes 0 (operand scope opcode) := by
  cases opcode with
  | call | globalGet | globalSet => exact .before definitionIndex_takes fun _ => .pure _
  | localGet | localSet | localTee | br | brIf => exact .before resolved_takes fun _ => .pure _
  | callIndirect => exact indirectType_takes
  | i32Const => exact .before word32_takes fun _ => .pure _
  | i64Const | f32Const | f64Const => exact .before integer_takes fun _ => .pure _
  | _ => exact .pure _

theorem plain_takes : Takes 1 (plain scope) := by
  intro stream code after read
  obtain ⟨tokens, rfl, written⟩ := (plain_reads scope).sound read
  have inside := written.balanced.not_isEnd
  obtain ⟨kind, immediate⟩ := written
  exact ⟨_, rfl, Nat.succ_le_succ (Nat.zero_le _), inside⟩

theorem closingLabel_takes {opening : Option String} : Takes 0 (closingLabel opening) := by
  refine .before .current fun token => .before identifier?_takes fun name => ?_
  split
  · split
    · exact .pure _
    · exact .fail
  · exact .pure _

/-- How many tokens the readers of bodies take with some fuel.  The first word of
a block is read whatever it is, so that it counts only where it was seen. -/
structure BodiesTake (fuel : Nat) : Prop where
  sequence : ∀ scope, Takes 0 (sequence fuel scope)
  instruction : ∀ scope, Takes 1 (instruction fuel scope)
  folded : ∀ scope, Takes 1 (folded fuel scope)
  foldedOperands : ∀ scope, Takes 0 (foldedOperands fuel scope)
  openBlock : ∀ scope kind, Takes 0 (openBlock fuel scope kind)

theorem bodiesTake (fuel : Nat) : BodiesTake fuel := by
  induction fuel with
  | zero =>
      exact ⟨fun _ => .outOfFuel, fun _ => .outOfFuel, fun _ => .outOfFuel, fun _ => .outOfFuel,
        fun _ _ => .outOfFuel⟩
  | succ fuel ih =>
      constructor
      case sequence =>
        refine fun scope => .before .current fun token => ?_
        split
        · exact .pure _
        · exact .before (ih.instruction scope) fun _ => .before (ih.sequence scope) fun _ =>
            .pure _
      case instruction =>
        refine fun scope => .before .get fun stream => ?_
        split
        · exact ih.folded scope
        · refine .before .current fun token => ?_
          split
          · exact .before (ih.openBlock scope _) fun _ => .andThen keyword_takes fun _ =>
              .andThen closingLabel_takes fun _ => .pure _
          · exact .andThen plain_takes fun _ => .pure _
      case folded =>
        refine fun scope => .andThen leftParen_takes fun _ =>
          .before .current fun token => (?_ : Takes 0 _)
        split
        · exact .before (ih.openBlock scope _) fun _ => .before rightParen_takes fun _ => .pure _
        · exact .before plain_takes fun _ => .before (ih.foldedOperands scope) fun _ =>
            .before rightParen_takes fun _ => .pure _
      case foldedOperands =>
        refine fun scope => .before .get fun stream => ?_
        split
        · exact .before (ih.folded scope) fun _ => .before (ih.foldedOperands scope) fun _ =>
            .pure _
        · exact .pure _
      case openBlock =>
        exact fun scope kind => .before .advance fun _ => .before identifier?_takes fun label =>
          .before results_takes fun _ => .before (ih.sequence _) fun _ => .pure _

theorem body_takes {environment : Environment} {frame : Frame} :
    Takes 0 (body environment frame) :=
  .before .get fun _ => (bodiesTake _).sequence _

end Bodies

end Reader

namespace Builder

open Reader

/-- Whether a builder takes at least so many tokens, whatever is declared. -/
def Takes (least : Nat) (action : Builder α) : Prop :=
  ∀ declarations, Reader.Takes least (action declarations)

namespace Takes

theorem pure (value : α) : Takes 0 (pure value) :=
  fun _ => .pure _

theorem get : Takes 0 get :=
  fun _ => .pure _

theorem set (declarations : Declarations) : Takes 0 (set declarations) :=
  fun _ => .pure _

theorem modify (change : Declarations → Declarations) : Takes 0 (modify change) :=
  fun _ => .pure _

theorem getStream : Takes 0 (getThe TokenStream) := by
  intro declarations stream value after read
  cases read
  exact .refl stream

theorem lift {reader : Reader α} (takes : Reader.Takes least reader) :
    Takes least (liftM reader : Builder α) := by
  rintro declarations stream ⟨value, final⟩ after read
  exact takes (lift_eq_ok.mp read).1

theorem andThen {first : Builder α} {next : α → Builder β} (begins : Takes least first)
    (goesOn : ∀ value, Takes more (next value)) : Takes least (first >>= next) :=
  fun declarations => .andThen (begins declarations) fun result => goesOn result.1 result.2

theorem before {first : Builder α} {next : α → Builder β} (begins : Takes more first)
    (goesOn : ∀ value, Takes least (next value)) : Takes least (first >>= next) :=
  fun declarations => .before (begins declarations) fun result => goesOn result.1 result.2

theorem map {action : Builder α} {change : α → β} (takes : Takes least action) :
    Takes least (change <$> action) := by
  rw [← bind_pure_comp]
  exact takes.andThen fun _ => .pure _

end Takes

theorem claim_takes {space : IndexSpace} : Takes 0 (claim space) :=
  .before .get fun _ => .before (.set _) fun _ => .pure _

theorem declareType_takes {name : Option String} {signature : Signature} :
    Takes 0 (declareType name signature) :=
  .before .get fun _ => .before (.set _) fun _ => .pure _

theorem typeDefinition_takes : Takes 1 typeDefinition :=
  .andThen (.lift openGroup_takes) fun _ => .before (.lift identifier?_takes) fun _ =>
    .before (.lift openGroup_takes) fun _ => .before (.lift bindings_takes) fun _ =>
    .before (.lift results_takes) fun _ => .before (.lift rightParen_takes) fun _ =>
    .before (.lift rightParen_takes) fun _ => .before declareType_takes fun _ => .pure _

theorem declareField_takes : Takes 1 declareField := by
  refine .before .getStream fun stream => ?_
  split
  · exact .andThen typeDefinition_takes fun _ => .modify _
  · split
    · exact .before (.modify _) fun _ => .lift skipGroup_takes
    · exact .lift skipGroup_takes

theorem declareFields_takes (fuel : Nat) : Takes 0 (declareFields fuel) := by
  induction fuel with
  | zero => exact .lift .outOfFuel
  | succ fuel ih =>
      refine .before .getStream fun stream => ?_
      split
      · exact .before declareField_takes fun _ => ih
      · exact .pure _

/-- The pass over all fields ends where it began. -/
theorem declareAll_takes : Takes 0 declareAll := by
  rintro declarations stream ⟨⟨⟩, final⟩ after run
  obtain ⟨rfl, -⟩ := declareAll_eq_ok run
  exact .refl after

theorem declaredType_takes : Takes 1 declaredType := by
  refine .before .get fun declarations => .andThen (.lift openGroup_takes) fun _ =>
    .before (.lift definitionIndex_takes) fun (index, span) => (?_ : Takes 0 _)
  dsimp only
  split
  · exact .before (.lift rightParen_takes) fun _ => .pure _
  · exact .lift .fail

theorem typeUse_takes : Takes 0 typeUse := by
  have ends (declared : Option (Nat × Signature)) :
      Takes 0 ((liftM (bindings .paramForm) : Builder _) >>= fun params =>
        (liftM results : Builder _) >>= fun types => typeUseWith declared params types) := by
    refine .before (.lift bindings_takes) fun params =>
      .before (.lift results_takes) fun types => ?_
    cases declared with
    | none => exact .before declareType_takes fun _ => .pure _
    | some found => exact .pure _
  intro declarations stream result after run
  rw [typeUse_apply] at run
  split at run
  · exact Takes.before declaredType_takes.map ends declarations run
  · exact Takes.before (.pure none) ends declarations run

theorem inlineExport_takes : Reader.Takes 1 inlineExport :=
  .andThen openGroup_takes fun _ => .before string_takes fun _ =>
    .before rightParen_takes fun _ => .pure _

theorem inlineImport_takes : Reader.Takes 1 inlineImport :=
  .andThen openGroup_takes fun _ => .before string_takes fun _ => .before string_takes fun _ =>
    .before rightParen_takes fun _ => .pure _

theorem inlineImport?_takes : Reader.Takes 0 inlineImport? := by
  refine .before .get fun stream => ?_
  split
  · exact .map (inlineImport_takes.mono (Nat.zero_le _))
  · exact .pure _

theorem functionField_takes {index typeIndex : Nat} {frame : Frame}
    {source : Option (String × String)} :
    Takes 1 (functionField index typeIndex frame source) := by
  cases source with
  | some names => exact .andThen (.lift rightParen_takes) fun _ => .pure _
  | none =>
      exact .before (.lift bindings_takes) fun locals => .before .get fun declarations =>
        .before (.lift body_takes) fun _ => .andThen (.lift rightParen_takes) fun _ => .pure _

theorem function_takes : Takes 1 function := by
  rw [function_eq]
  exact .andThen (.lift openGroup_takes) fun _ => .before claim_takes fun index =>
    .before (.lift identifier?_takes) fun _ =>
    .before (.lift (.many inlineExport_takes)) fun names =>
    .before (.lift inlineImport?_takes) fun source => .before typeUse_takes fun used =>
    .before functionField_takes fun field => .pure _

theorem externalKind_takes {expected : Expectation} : Reader.Takes 1 (externalKind expected) :=
  .andThen (accept_takes_one rfl) fun _ => .pure _

theorem exportField_takes : Takes 1 exportField :=
  .andThen (.lift openGroup_takes) fun _ => .before (.lift string_takes) fun _ =>
    .before (.lift leftParen_takes) fun _ => .before (.lift externalKind_takes) fun _ =>
    .before .get fun _ => .before (.lift definitionIndex_takes) fun _ =>
    .before (.lift rightParen_takes) fun _ => .before (.lift rightParen_takes) fun _ => .pure _

theorem limits_takes : Reader.Takes 1 limits := by
  refine .andThen natural_takes fun min => .before .current fun token => (?_ : Reader.Takes 0 _)
  split
  · exact .before natural_takes fun _ => .pure _
  · exact .pure _

theorem importTarget_takes {index : Nat} {kind : ExternalKind} :
    Takes 1 (importTarget index kind) := by
  cases kind with
  | function =>
      exact .before (.lift identifier?_takes) fun _ => .before typeUse_takes fun _ =>
        .andThen (.lift rightParen_takes) fun _ => .pure _
  | memory =>
      exact .before (.lift identifier?_takes) fun _ => .before (.lift limits_takes) fun _ =>
        .andThen (.lift rightParen_takes) fun _ => .pure _
  | table | global => exact .andThen (.lift closeGroup_takes) fun _ => .pure _

theorem importField_takes : Takes 1 importField :=
  .andThen (.lift openGroup_takes) fun _ => .before (.lift string_takes) fun _ =>
    .before (.lift string_takes) fun _ => .before (.lift leftParen_takes) fun _ =>
    .before (.lift externalKind_takes) fun _ => .before claim_takes fun _ =>
    .before importTarget_takes fun _ => .before (.lift rightParen_takes) fun _ => .pure _

theorem typeField_takes : Takes 1 typeField := by
  refine .before .get fun declarations => ?_
  split
  · exact .before (.set _) fun _ => .andThen (.lift skipGroup_takes) fun _ => .pure _
  · exact .lift .unexpected

theorem skippedField_takes {word : Option Keyword} : Takes 1 (skippedField word) := by
  unfold skippedField
  split
  · exact .before claim_takes fun _ => .lift skipGroup_takes
  · exact .lift skipGroup_takes

theorem field_takes : Takes 1 field := by
  refine .before .getStream fun stream => ?_
  split
  · exact function_takes
  · exact .andThen exportField_takes fun _ => .pure _
  · exact .andThen importField_takes fun _ => .pure _
  · exact .andThen typeField_takes fun _ => .pure _
  · exact .andThen skippedField_takes fun _ => .pure _

theorem fields_takes (fuel : Nat) : Takes 0 (fields fuel) := by
  induction fuel with
  | zero => exact .lift .outOfFuel
  | succ fuel ih =>
      refine .before .getStream fun stream => ?_
      split
      · exact .before field_takes fun _ => .before ih fun _ => .pure _
      · exact .pure _

theorem module_takes : Takes 1 module := by
  refine .andThen (.lift openGroup_takes) fun _ => .before (.lift identifier?_takes) fun id =>
    .before declareAll_takes fun _ => .before .getStream fun stream =>
    .before (fields_takes _) fun fields => .before (.lift rightParen_takes) fun _ =>
    .before (.lift .current) fun token => (?_ : Takes 0 _)
  split
  · exact .before .get fun _ => .pure _
  · exact .lift .unexpected

end Builder

end WatMachine
