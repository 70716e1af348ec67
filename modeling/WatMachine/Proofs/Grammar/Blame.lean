import WatMachine.Proofs.Grammar.FunctionReaders

/-!
# Readers blame tokens

A reader that fails blames a token: its error has the span of the token and
says what the token is.  That token is the current one, or one that has just
been read and does not mean anything.  Fuel is never the reason, since every
reader that is entered again has taken a token in between, and fuel is counted
in the tokens that are left.
-/

namespace WatMachine

open TokenStream

namespace ParseError

/-- Whether an error is about a token: it has the span of the token, and says
what the token is. -/
def Blames (error : ParseError) (token : Token) : Prop :=
  error.span = token.span ∧
    match error.fault with
    | .unexpected _ found => token.kind = found
    | .undefined _ (.name text) => token.kind = .identifier text
    | .undefined _ (.index number) => token.kind = .integer number
    | .unknownInstruction word => token.kind = .reserved word
    | .constantOutOfRange value => token.kind = .integer value
    | .lexical _ | .outOfFuel => False

/-- Whether an error is about one of some tokens.  That a type definition was
not declared is never the matter. -/
structure Concerns (error : ParseError) (all : List Token) : Prop where
  blames : ∃ token ∈ all, error.Blames token
  declared : ∀ found, error.fault ≠ .unexpected .declaredType found

end ParseError

namespace TokenStream

/-- The tokens that a stream shows. -/
def shown (stream : TokenStream) : List Token :=
  stream.ahead ++ [.endAt stream.finish]

theorem shown_prepend (stream : TokenStream) (tokens : List Token) :
    (stream.prepend tokens).shown = tokens ++ stream.shown :=
  List.append_assoc _ _ _

theorem current_mem_shown (stream : TokenStream) : stream.current ∈ stream.shown := by
  obtain ⟨_ | ⟨token, ahead⟩, finish⟩ := stream
  · exact List.mem_singleton_self _
  · exact List.mem_cons_self

theorem length_le_prepend (stream : TokenStream) (tokens : List Token) :
    stream.ahead.length ≤ (stream.prepend tokens).ahead.length := by
  rw [ahead_prepend, List.length_append]
  exact Nat.le_add_left _ _

theorem length_lt_prepend_cons (stream : TokenStream) (token : Token) (tokens : List Token) :
    stream.ahead.length < (stream.prepend (token :: tokens)).ahead.length :=
  Nat.lt_succ_of_le (stream.length_le_prepend tokens)

theorem exists_prepend_advance (stream : TokenStream) :
    ∃ tokens, stream = stream.advance.prepend tokens := by
  obtain ended | ⟨token, after, rfl, inside⟩ := stream.isEnd_or_exists_prepend
  · exact ⟨[], by rw [advance, if_pos ended]; rfl⟩
  · exact ⟨[token], by rw [advance_prepend_of_not_end after inside]⟩

end TokenStream

namespace Reader

variable {α β : Type} {all : List Token} {stream : TokenStream}

/-- Whether a reader takes tokens from the front of a stream, or else its error
concerns some tokens, if these include the ones that the stream shows. -/
def Answers (all : List Token) (reader : Reader α) (stream : TokenStream) : Prop :=
  stream.shown ⊆ all →
    match reader stream with
    | .ok (_, after) => ∃ tokens, stream = after.prepend tokens
    | .error error => error.Concerns all

namespace Answers

theorem takes {reader : Reader α} (answers : Answers all reader stream)
    (within : stream.shown ⊆ all) {value : α} {after : TokenStream}
    (read : reader stream = .ok (value, after)) : ∃ tokens, stream = after.prepend tokens := by
  have answer := answers within
  rwa [read] at answer

theorem concerns {reader : Reader α} (answers : Answers all reader stream)
    (within : stream.shown ⊆ all) {error : ParseError} (read : reader stream = .error error) :
    error.Concerns all := by
  have answer := answers within
  rwa [read] at answer

/-- A reader may be looked at where its stream is known to show only tokens
that can be blamed. -/
theorem of_within {reader : Reader α} (answers : stream.shown ⊆ all → Answers all reader stream) :
    Answers all reader stream :=
  fun within => answers within within

theorem congr {reader other : Reader α} (same : reader stream = other stream)
    (answers : Answers all other stream) : Answers all reader stream := by
  rwa [Answers, same]

theorem pure (value : α) : Answers all (pure value) stream :=
  fun _ => ⟨[], rfl⟩

theorem bind {first : Reader α} {next : α → Reader β} (begins : Answers all first stream)
    (goesOn : ∀ value after, first stream = .ok (value, after) → Answers all (next value) after) :
    Answers all (first >>= next) stream := by
  intro within
  rw [bind_apply]
  cases begun : first stream with
  | error error => exact begins.concerns within begun
  | ok result =>
      obtain ⟨value, middle⟩ := result
      obtain ⟨front, rfl⟩ := begins.takes within begun
      have inside : middle.shown ⊆ all := by
        rw [shown_prepend] at within
        exact List.Subset.trans (List.subset_append_right _ _) within
      have answer := goesOn value middle begun inside
      dsimp only
      cases read : next value middle with
      | error error =>
          rw [read] at answer
          exact answer
      | ok result =>
          rw [read] at answer
          obtain ⟨back, rfl⟩ := answer
          exact ⟨front ++ back, (prepend_append _ _ _).symm⟩

theorem map {reader : Reader α} {change : α → β} (answers : Answers all reader stream) :
    Answers all (change <$> reader) stream := by
  rw [← bind_pure_comp]
  exact answers.bind fun _ _ _ => .pure _

theorem get {next : TokenStream → Reader β} (answers : Answers all (next stream) stream) :
    Answers all (get >>= next) stream := by
  rwa [Answers, bind_apply, get_apply]

theorem current {next : Token → Reader β} (answers : Answers all (next stream.current) stream) :
    Answers all (current >>= next) stream := by
  rwa [Answers, bind_apply, current_apply]

/-- A reader may fail at a token that its stream shows or has shown. -/
theorem fail {token : Token} (member : token ∈ all) {fault : ParseFault}
    (blames : ParseError.Blames ⟨fault, token.span⟩ token)
    (declared : ∀ found, fault ≠ .unexpected .declaredType found) :
    Answers all (fail fault token.span : Reader α) stream :=
  fun _ => ⟨⟨token, member, blames⟩, declared⟩

theorem unexpected {expected : Expectation} (declared : expected ≠ .declaredType) :
    Answers all (unexpected expected : Reader α) stream := by
  intro within
  refine ⟨⟨stream.current, within stream.current_mem_shown, rfl, rfl⟩, fun found same => ?_⟩
  exact declared (ParseFault.unexpected.inj same).1

theorem advance : Answers all advance stream :=
  fun _ => stream.exists_prepend_advance

end Answers

section Tokens

theorem accept_answers {expected : Expectation} {select : TokenKind → Option α}
    (declared : expected ≠ .declaredType) : Answers all (accept expected select) stream := by
  refine .current ?_
  cases select stream.current.kind with
  | some value => exact Answers.advance.bind fun _ _ _ => .pure _
  | none => exact .unexpected declared

theorem acceptKind_answers {expected : Expectation} {kind : TokenKind}
    (declared : expected ≠ .declaredType) : Answers all (acceptKind expected kind) stream :=
  (accept_answers declared).bind fun _ _ _ => .pure _

theorem leftParen_answers : Answers all leftParen stream :=
  acceptKind_answers nofun

theorem rightParen_answers : Answers all rightParen stream :=
  acceptKind_answers nofun

theorem keyword_answers {word : Keyword} : Answers all (keyword word) stream :=
  acceptKind_answers nofun

theorem openGroup_answers {word : Keyword} : Answers all (openGroup word) stream :=
  leftParen_answers.bind fun _ _ _ => keyword_answers

theorem string_answers : Answers all string stream :=
  (accept_answers (by nofun)).bind fun _ _ _ => .pure _

theorem integer_answers : Answers all integer stream :=
  accept_answers (by nofun)

theorem natural_answers {expected : Expectation} (declared : expected ≠ .declaredType) :
    Answers all (natural expected) stream :=
  (accept_answers declared).bind fun _ _ _ => .pure _

theorem valueType_answers : Answers all valueType stream :=
  (accept_answers (by nofun)).bind fun _ _ _ => .pure _

theorem identifier?_answers : Answers all identifier? stream := by
  refine .current ?_
  cases stream.current.kind with
  | identifier name => exact Answers.advance.bind fun _ _ _ => .pure _
  | _ => exact .pure _

/-- What a token that was taken as a reference says. -/
theorem kind_of_reference? {kind : TokenKind} {identifier : Identifier}
    (selected : reference? kind = some identifier) :
    match identifier with
    | .name text => kind = .identifier text
    | .index number => kind = .integer number := by
  cases kind with
  | identifier text =>
      cases selected
      rfl
  | integer value =>
      obtain ⟨number, small, rfl⟩ := Option.map_eq_some_iff.mp selected
      simp only [naturalValue?, Option.ite_none_right_eq_some, Option.some.injEq] at small
      obtain ⟨⟨positive, -⟩, rfl⟩ := small
      exact congrArg TokenKind.integer (Int.toNat_of_nonneg positive).symm
  | _ => cases selected

/-- A reference that is undefined is the token that makes it. -/
theorem blames_of_reference? {token : Token} {identifier : Identifier}
    (selected : reference? token.kind = some identifier) (referent : Referent) :
    ParseError.Blames ⟨.undefined referent identifier, token.span⟩ token := by
  refine ⟨rfl, ?_⟩
  have kind := kind_of_reference? selected
  cases identifier <;> exact kind

theorem resolved_answers {expected : Expectation} {referent : Referent}
    {resolve : Identifier → Option Nat} (declared : expected ≠ .declaredType) :
    Answers all (resolved expected referent resolve) stream := by
  refine .of_within fun within => (accept_answers declared).bind ?_
  rintro ⟨identifier, span⟩ after accepted
  obtain ⟨token, rfl, selected, rfl⟩ := (accept_eq_ok rfl).mp accepted
  dsimp only
  cases resolve identifier with
  | some index => exact .pure _
  | none => exact .fail (within List.mem_cons_self) (blames_of_reference? selected _) nofun

theorem closeGroups_concerns {finish : Source.Span} {depth : Nat} {tokens : List Token}
    {error : ParseError} (failed : closeGroups finish depth tokens = .error error) :
    error.Concerns (tokens ++ [.endAt finish]) := by
  have more {error : ParseError} {token : Token} {tokens : List Token}
      (concerns : error.Concerns tokens) : error.Concerns (token :: tokens) := by
    obtain ⟨⟨other, member, blames⟩, declared⟩ := concerns
    exact ⟨⟨other, List.mem_cons_of_mem _ member, blames⟩, declared⟩
  induction tokens generalizing depth with
  | nil =>
      cases failed
      exact ⟨⟨_, List.mem_singleton_self _, rfl, rfl⟩, nofun⟩
  | cons token tokens ih =>
      by_cases ended : token.kind = .endOfInput
      · rw [closeGroups_end _ _ ended] at failed
        cases failed
        exact ⟨⟨token, List.mem_cons_self, rfl, ended⟩, nofun⟩
      by_cases opened : token.kind = .leftParen
      · rw [closeGroups_left _ _ opened] at failed
        exact more (ih failed)
      by_cases closed : token.kind = .rightParen
      · cases depth with
        | zero =>
            rw [closeGroups_right_zero _ closed] at failed
            cases failed
        | succ depth =>
            rw [closeGroups_right_succ _ _ closed] at failed
            exact more (ih failed)
      · rw [closeGroups_other _ _ opened closed ended] at failed
        exact more (ih failed)

theorem closeGroup_answers : Answers all closeGroup stream := by
  intro within
  cases closed : closeGroup stream with
  | ok result =>
      obtain ⟨⟨⟩, after⟩ := result
      obtain ⟨inner, right, shape, -, -⟩ := closeGroup_eq_ok.mp closed
      exact ⟨_, shape⟩
  | error error =>
      rw [closeGroup_apply] at closed
      cases skipped : closeGroups stream.finish 0 stream.ahead with
      | ok rest =>
          rw [skipped] at closed
          cases closed
      | error fault =>
          rw [skipped] at closed
          cases closed
          obtain ⟨⟨token, member, blames⟩, declared⟩ := closeGroups_concerns skipped
          exact ⟨⟨token, within member, blames⟩, declared⟩

theorem skipGroup_answers : Answers all skipGroup stream :=
  leftParen_answers.bind fun _ _ _ => closeGroup_answers

end Tokens

section Repetition

variable {here : TokenStream → Bool} {item : Reader α}

/-- Items are repeated without running out of fuel, if each of them takes a
token and none starts at the end of input. -/
theorem many_answers (ends : ∀ finish, here ⟨[], finish⟩ = false)
    (items : ∀ stream, Answers all item stream)
    (shortens : ∀ {stream value after}, item stream = .ok (value, after) →
      after.ahead.length < stream.ahead.length) :
    Answers all (many here item) stream := by
  have repeats (clock : List Token) (stream : TokenStream)
      (enough : stream.ahead.length ≤ clock.length) :
      Answers all (repeatWhile here item clock) stream := by
    induction clock generalizing stream with
    | nil =>
        obtain ⟨ahead, finish⟩ := stream
        obtain rfl : ahead = [] := List.eq_nil_of_length_eq_zero (Nat.le_zero.mp enough)
        refine .get ?_
        rw [ends]
        exact .pure _
    | cons _ clock ih =>
        refine .get ?_
        split
        · refine (items stream).bind fun first after taken => ?_
          have left : after.ahead.length ≤ clock.length :=
            Nat.le_of_lt_succ (Nat.lt_of_lt_of_le (shortens taken) enough)
          exact (ih after left).bind fun _ _ _ => .pure _
        · exact .pure _
  exact .get (repeats stream.ahead stream (Nat.le_refl _))

/-- A reader of groups takes a token. -/
theorem group_shortens {word : Keyword} {language : List Token → α → Prop}
    {follows : TokenStream → Prop} (reads : Reads item (Group word language) follows)
    {stream after : TokenStream} {value : α} (taken : item stream = .ok (value, after)) :
    after.ahead.length < stream.ahead.length := by
  obtain ⟨_, rfl, ⟨_, _, _, _⟩⟩ := reads.sound taken
  exact length_lt_prepend_cons _ _ _

theorem valueTypes_answers : Answers all valueTypes stream := by
  refine many_answers (fun _ => rfl) (fun _ => valueType_answers) fun taken => ?_
  obtain ⟨token, rfl, -⟩ := valueType_eq_ok.mp taken
  exact length_lt_prepend_cons _ _ _

theorem groupBindings_answers : Answers all groupBindings stream := by
  refine .get ?_
  split
  · exact valueTypes_answers.bind fun _ _ _ => .pure _
  · refine identifier?_answers.bind fun name _ _ => .get ?_
    split
    · exact valueType_answers.bind fun _ _ _ => .pure _
    · exact .pure _

theorem bindings_answers {word : Keyword} : Answers all (bindings word) stream := by
  have grouped (stream : TokenStream) : Answers all (bindingGroup word) stream :=
    openGroup_answers.bind fun _ _ _ => groupBindings_answers.bind fun _ _ _ =>
      rightParen_answers.bind fun _ _ _ => .pure _
  exact (many_answers (fun _ => rfl) grouped (group_shortens (bindingGroup_reads word))).bind
    fun _ _ _ => .pure _

theorem results_answers : Answers all results stream := by
  have grouped (stream : TokenStream) : Answers all resultGroup stream :=
    openGroup_answers.bind fun _ _ _ => valueTypes_answers.bind fun _ _ _ =>
      rightParen_answers.bind fun _ _ _ => .pure _
  exact (many_answers (fun _ => rfl) grouped (group_shortens resultGroup_reads)).bind
    fun _ _ _ => .pure _

end Repetition

section Bodies

variable {scope : Scope}

theorem definitionIndex_answers {environment : Environment} {expected : Expectation}
    {space : IndexSpace} (declared : expected ≠ .declaredType) :
    Answers all (definitionIndex environment expected space) stream :=
  resolved_answers declared

theorem indirectType_answers : Answers all (indirectType scope) stream := by
  have typed : Answers all (typeOperand scope) stream :=
    openGroup_answers.bind fun _ _ _ => (definitionIndex_answers (by nofun)).bind fun _ _ _ =>
      rightParen_answers.bind fun _ _ _ => .pure _
  have skipped (stream : TokenStream) : Answers all (many atSignatureGroup skipGroup) stream := by
    refine many_answers (fun _ => rfl) (fun _ => skipGroup_answers) fun taken => ?_
    obtain ⟨left, inner, right, rfl, -⟩ := skipGroup_eq_ok.mp taken
    exact length_lt_prepend_cons _ _ _
  refine .get ?_
  split
  · exact typed.map.bind fun _ _ _ => (skipped _).bind fun _ _ _ => .pure _
  · exact (skipped _).bind fun _ _ _ => .pure _

/-- A literal that is out of range has been read when it is blamed. -/
theorem word32_answers : Answers all word32 stream := by
  refine .of_within fun within => integer_answers.bind ?_
  rintro ⟨value, span⟩ after accepted
  obtain ⟨token, rfl, kind, rfl⟩ := integer_eq_ok.mp accepted
  dsimp only
  split
  · exact .pure _
  · exact .fail (within List.mem_cons_self) ⟨rfl, kind⟩ nofun

theorem operand_answers {opcode : Keyword} : Answers all (operand scope opcode) stream := by
  cases opcode with
  | call | globalGet | globalSet =>
      exact (definitionIndex_answers (by nofun)).bind fun _ _ _ => .pure _
  | localGet | localSet | localTee | br | brIf =>
      exact (resolved_answers (by nofun)).bind fun _ _ _ => .pure _
  | callIndirect => exact indirectType_answers
  | i32Const => exact word32_answers.bind fun _ _ _ => .pure _
  | i64Const | f32Const | f64Const => exact integer_answers.bind fun _ _ _ => .pure _
  | _ => exact .pure _

theorem plain_answers : Answers all (plain scope) stream := by
  refine .of_within fun within => .current ?_
  cases kind : stream.current.kind with
  | keyword opcode =>
      dsimp only
      split
      · exact Answers.advance.bind fun _ _ _ => operand_answers.bind fun _ _ _ => .pure _
      · exact .unexpected nofun
  | reserved word => exact .fail (within stream.current_mem_shown) ⟨rfl, kind⟩ nofun
  | _ => exact .unexpected nofun

/-- A closing label that opens no block has been read when it is blamed. -/
theorem closingLabel_answers {opening : Option String} :
    Answers all (closingLabel opening) stream := by
  refine .of_within fun within => .current (identifier?_answers.bind fun name after _ => ?_)
  cases name with
  | none => exact .pure _
  | some name =>
      dsimp only
      split
      · exact .pure _
      · exact .fail (within stream.current_mem_shown) ⟨rfl, rfl⟩ nofun

/-- The fuel that the reader of a phrase needs in front of some tokens. -/
def fuelFor : Phrase → Nat → Nat
  | .sequence, count => 3 * count + 3
  | .instruction, count => 3 * count + 2
  | .folded, count => 3 * count + 1
  | .operands, count => 3 * count + 2

/-- Whether the readers of bodies answer with some fuel, wherever it is
enough. -/
structure BodiesAnswer (all : List Token) (fuel : Nat) : Prop where
  phrase : ∀ (phrase : Phrase) {scope stream}, fuelFor phrase stream.ahead.length ≤ fuel →
    Answers all (phrase.reader fuel scope) stream
  block : ∀ {scope kind stream}, stream.current.kind = .keyword (BlockKind.keyword kind) →
    3 * stream.ahead.length + 1 ≤ fuel → Answers all (openBlock fuel scope kind) stream

variable {fuel : Nat}

/-- An instruction takes a token, in flat form and in folded form. -/
theorem phrase_shortens {phrase : Phrase} (listed : phrase = .instruction ∨ phrase = .folded)
    {after : TokenStream} {code : List Instruction}
    (read : phrase.reader fuel scope stream = .ok (code, after)) :
    after.ahead.length < stream.ahead.length := by
  obtain ⟨_, rfl, derived⟩ := (phraseSound fuel).1 phrase read
  have first := derived.first_token
  obtain rfl | rfl := listed
  all_goals
    obtain ⟨token, tokens, rfl, -⟩ := first
    exact length_lt_prepend_cons after token tokens

theorem sequence_answers (ih : BodiesAnswer all fuel)
    (enough : 3 * stream.ahead.length + 3 ≤ fuel + 1) :
    Answers all (sequence (fuel + 1) scope) stream := by
  refine .current ?_
  split
  · exact .pure _
  · refine (ih.phrase .instruction ?_).bind fun first after begun => ?_
    · rw [fuelFor]
      omega
    · have shorter := phrase_shortens (.inl rfl) begun
      refine (ih.phrase .sequence ?_).bind fun _ _ _ => .pure _
      rw [fuelFor]
      omega

theorem instruction_answers (ih : BodiesAnswer all fuel)
    (enough : 3 * stream.ahead.length + 2 ≤ fuel + 1) :
    Answers all (instruction (fuel + 1) scope) stream := by
  refine .get ?_
  split
  · refine ih.phrase .folded ?_
    rw [fuelFor]
    omega
  · refine .current ?_
    cases isBlock : stream.current.kind.blockKind? with
    | some kind =>
        refine (ih.block (TokenKind.blockKind?_eq_some.mp isBlock) (by omega)).bind ?_
        rintro ⟨label, block⟩ _ _
        exact keyword_answers.bind fun _ _ _ => closingLabel_answers.bind fun _ _ _ => .pure _
    | none => exact plain_answers.bind fun _ _ _ => .pure _

theorem folded_answers (ih : BodiesAnswer all fuel)
    (enough : 3 * stream.ahead.length + 1 ≤ fuel + 1) :
    Answers all (folded (fuel + 1) scope) stream := by
  refine leftParen_answers.bind fun _ inner opened => .current ?_
  obtain ⟨left, rfl, -⟩ := leftParen_eq_ok.mp opened
  rw [ahead_prepend, List.length_append, List.length_singleton] at enough
  cases isBlock : inner.current.kind.blockKind? with
  | some kind =>
      refine (ih.block (TokenKind.blockKind?_eq_some.mp isBlock) (by omega)).bind ?_
      rintro ⟨label, block⟩ _ _
      exact rightParen_answers.bind fun _ _ _ => .pure _
  | none =>
      refine plain_answers.bind fun last after taken => ?_
      obtain ⟨tokens, rfl, -⟩ := (plain_reads scope).sound taken
      have less := length_le_prepend after tokens
      refine (ih.phrase .operands ?_).bind fun _ _ _ => rightParen_answers.bind fun _ _ _ => .pure _
      rw [fuelFor]
      omega

theorem foldedOperands_answers (ih : BodiesAnswer all fuel)
    (enough : 3 * stream.ahead.length + 2 ≤ fuel + 1) :
    Answers all (foldedOperands (fuel + 1) scope) stream := by
  refine .get ?_
  split
  · refine (ih.phrase .folded ?_).bind fun first after begun => ?_
    · rw [fuelFor]
      omega
    · have shorter := phrase_shortens (.inr rfl) begun
      refine (ih.phrase .operands ?_).bind fun _ _ _ => .pure _
      rw [fuelFor]
      omega
  · exact .pure _

theorem openBlock_answers {kind : BlockKind} (ih : BodiesAnswer all fuel)
    (opens : stream.current.kind = .keyword kind.keyword)
    (enough : 3 * stream.ahead.length + 1 ≤ fuel + 1) :
    Answers all (openBlock (fuel + 1) scope kind) stream := by
  obtain ended | ⟨word, behind, rfl, inside⟩ := stream.isEnd_or_exists_prepend
  · simp [Token.isEnd, opens] at ended
  refine Answers.advance.bind fun first after moved => ?_
  cases moved
  rw [advance_prepend_of_not_end behind inside]
  refine identifier?_answers.bind fun label after named => ?_
  obtain ⟨name, rfl, -, -⟩ := identifier?_eq_ok.mp named
  refine results_answers.bind fun types after given => ?_
  obtain ⟨groups, rfl, -⟩ := results_reads.sound given
  refine (ih.phrase .sequence ?_).bind fun _ _ _ => .pure _
  simp only [ahead_prepend, List.length_append, List.length_singleton] at enough
  rw [fuelFor]
  omega

theorem bodiesAnswer (fuel : Nat) : BodiesAnswer all fuel := by
  induction fuel with
  | zero =>
      constructor
      · intro phrase scope stream enough
        cases phrase <;> simp [fuelFor] at enough
      · intro scope kind stream opens enough
        simp at enough
  | succ fuel ih =>
      constructor
      · intro phrase scope stream enough
        cases phrase with
        | sequence => exact sequence_answers ih enough
        | instruction => exact instruction_answers ih enough
        | folded => exact folded_answers ih enough
        | operands => exact foldedOperands_answers ih enough
      · intro scope kind stream opens enough
        exact openBlock_answers ih opens enough

theorem body_answers {environment : Environment} {frame : Frame} :
    Answers all (body environment frame) stream :=
  .get ((bodiesAnswer _).phrase .sequence (Nat.le_refl _))

end Bodies

end Reader

end WatMachine
