import Mathlib.Data.List.Forall2
import WatMachine.Grammar.Body
import WatMachine.Proofs.Grammar.Repetition
import WatMachine.Proofs.Machine.Positions

/-!
# Positions do not matter to reading

A reader looks at the kinds of tokens only.  On streams with tokens of the
same kinds it takes equally many of them and gives the same value, up to the
places where instructions were found, or it fails with the same fault.  The
places that it passes on, in instructions and in errors, are those of the
tokens that it has taken them from, so whatever relation there is between the
places in two streams, there is between those in what is read from them.
-/

namespace WatMachine

open TokenStream Instruction Source

section Alike

variable (places : Span → Span → Prop)

/-- Whether two tokens are of the same kind and were found at related places. -/
structure Token.Alike (token other : Token) : Prop where
  kind : token.kind = other.kind
  span : places token.span other.span

/-- Whether two streams show such tokens, and end at related places. -/
structure TokenStream.Alike (stream other : TokenStream) : Prop where
  ahead : List.Forall₂ (Token.Alike places) stream.ahead other.ahead
  finish : places stream.finish other.finish

/-- Whether two results of reading are related values, or the same fault at
related places. -/
inductive Agreement {α : Type} (related : α → α → Prop) :
    Except ParseError α → Except ParseError α → Prop where
  | accepted {value other : α} (same : related value other) :
      Agreement related (.ok value) (.ok other)
  | rejected {error other : ParseError} (fault : error.fault = other.fault)
      (place : places error.span other.span) : Agreement related (.error error) (.error other)

/-- Whether two values were found at related places and are the same. -/
def FoundAlike {α : Type} (first second : α × Span) : Prop :=
  first.1 = second.1 ∧ places first.2 second.2

/-- Whether code is the same but for the places of its instructions, which are
related one by one. -/
structure CodeAlike (code other : List Instruction) : Prop where
  unplaced : unplacedAll code = unplacedAll other
  spans : List.Forall₂ places (spansAll code) (spansAll other)

end Alike

variable {places : Span → Span → Prop}

theorem Agreement.exists_ok {α : Type} {related : α → α → Prop} {value : α}
    {result : Except ParseError α} (agreement : Agreement places related (.ok value) result) :
    ∃ other, result = .ok other ∧ related value other := by
  cases agreement with
  | accepted same => exact ⟨_, rfl, same⟩

namespace TokenStream.Alike

variable {stream other : TokenStream}

theorem length (alike : Alike places stream other) : stream.ahead.length = other.ahead.length :=
  alike.ahead.length_eq

theorem nth (alike : Alike places stream other) (distance : Nat) :
    Token.Alike places (stream.nth distance) (other.nth distance) := by
  have shown {ahead copies : List Token} (tokens : List.Forall₂ (Token.Alike places) ahead copies)
      (distance : Nat) : Token.Alike places (ahead.getD distance (.endAt stream.finish))
        (copies.getD distance (.endAt other.finish)) := by
    induction tokens generalizing distance with
    | nil => exact ⟨rfl, alike.finish⟩
    | cons first others ih =>
        cases distance with
        | zero => exact first
        | succ distance => exact ih distance
  exact shown alike.ahead distance

theorem current (alike : Alike places stream other) :
    Token.Alike places stream.current other.current :=
  alike.nth 0

theorem atLeftParen (alike : Alike places stream other) :
    stream.atLeftParen = other.atLeftParen := by
  rw [TokenStream.atLeftParen, TokenStream.atLeftParen, alike.current.kind]

theorem atGroup (alike : Alike places stream other) (word : Keyword) :
    stream.atGroup word = other.atGroup word := by
  rw [TokenStream.atGroup, TokenStream.atGroup, alike.atLeftParen, (alike.nth 1).kind]

theorem atValueType (alike : Alike places stream other) :
    stream.atValueType = other.atValueType := by
  rw [TokenStream.atValueType, TokenStream.atValueType, alike.current.kind]

theorem advance (alike : Alike places stream other) :
    Alike places stream.advance other.advance := by
  have ends : stream.current.isEnd = other.current.isEnd := by
    rw [Token.isEnd, Token.isEnd, alike.current.kind]
  rw [TokenStream.advance, TokenStream.advance, ends]
  cases other.current.isEnd with
  | true => exact alike
  | false =>
      have tails {ahead copies : List Token}
          (tokens : List.Forall₂ (Token.Alike places) ahead copies) :
          List.Forall₂ (Token.Alike places) ahead.tail copies.tail := by
        cases tokens with
        | nil => exact .nil
        | cons first others => exact others
      exact ⟨tails alike.ahead, alike.finish⟩

end TokenStream.Alike

namespace CodeAlike

variable {code more other others : List Instruction}

theorem nil : CodeAlike places [] [] :=
  ⟨rfl, .nil⟩

theorem append (first : CodeAlike places code other) (rest : CodeAlike places more others) :
    CodeAlike places (code ++ more) (other ++ others) := by
  constructor
  · rw [unplacedAll_append, unplacedAll_append, first.unplaced, rest.unplaced]
  · rw [spansAll_append, spansAll_append]
    exact List.rel_append first.spans rest.spans

theorem plain {span place : Span} (here : places span place) (opcode : Keyword)
    (operand : Option Operand) :
    CodeAlike places [.plain opcode operand span] [.plain opcode operand place] :=
  ⟨rfl, .cons here .nil⟩

theorem structured {span place : Span} (here : places span place) (kind : BlockKind)
    (label : Option String) (inner : CodeAlike places code other) :
    CodeAlike places [.structured kind label code span] [.structured kind label other place] := by
  constructor
  · simp only [unplacedAll, Instruction.unplaced, inner.unplaced]
  · simp only [spansAll, Instruction.spans, List.append_nil]
    exact .cons here inner.spans

end CodeAlike

namespace Reader

variable {α β : Type}

/-- Whether two readers give related values on streams that are alike, and
leave such streams, or fail alike. -/
def Agree (places : Span → Span → Prop) (related : α → α → Prop) (reader other : Reader α) :
    Prop :=
  ∀ stream copy, Alike places stream copy →
    Agreement places (fun first second => related first.1 second.1 ∧ Alike places first.2 second.2)
      (reader stream) (other copy)

namespace Agree

variable {related : α → α → Prop} {resembling : β → β → Prop}

theorem pure {value other : α} (same : related value other) :
    Agree places related (pure value) (pure other) := by
  intro stream copy alike
  exact .accepted ⟨same, alike⟩

theorem bind {first second : Reader α} {next after : α → Reader β}
    (firsts : Agree places related first second)
    (nexts : ∀ value other, related value other →
      Agree places resembling (next value) (after other)) :
    Agree places resembling (first >>= next) (second >>= after) := by
  intro stream copy alike
  have begun := firsts stream copy alike
  have unfolded {reader : Reader α} {rest : α → Reader β} (stream : TokenStream) :
      (reader >>= rest) stream = reader stream >>= fun (value, left) => rest value left :=
    rfl
  rw [unfolded, unfolded]
  generalize first stream = one, second copy = two at begun
  cases begun with
  | rejected fault place => exact .rejected fault place
  | accepted same =>
      obtain ⟨same, stillAlike⟩ := same
      exact nexts _ _ same _ _ stillAlike

theorem map {first second : Reader α} {change alter : α → β}
    (firsts : Agree places related first second)
    (changes : ∀ value other, related value other → resembling (change value) (alter other)) :
    Agree places resembling (change <$> first) (alter <$> second) := by
  rw [← bind_pure_comp, ← bind_pure_comp]
  exact firsts.bind fun value other same => .pure (changes value other same)

theorem get :
    Agree places (Alike places) (get : Reader TokenStream)
      (MonadStateOf.get : Reader TokenStream) := by
  intro stream copy alike
  exact .accepted ⟨alike, alike⟩

theorem set {stream other : TokenStream} (alike : Alike places stream other) :
    Agree places Eq (MonadStateOf.set stream : Reader PUnit) (MonadStateOf.set other) := by
  intro _ _ _
  exact .accepted ⟨rfl, alike⟩

theorem fail {span place : Span} (here : places span place) (fault : ParseFault) :
    Agree places related (fail fault span) (fail fault place) := by
  intro stream copy alike
  exact .rejected rfl here

theorem unexpected (expected : Expectation) :
    Agree places related (unexpected expected) (unexpected expected) := by
  intro stream copy alike
  exact .rejected (congrArg (ParseFault.unexpected expected) alike.current.kind)
    alike.current.span

theorem outOfFuel : Agree places related outOfFuel outOfFuel := by
  intro stream copy alike
  exact .rejected rfl alike.current.span

end Agree

theorem current_agree : Agree places (Token.Alike places) current current := by
  intro stream copy alike
  exact .accepted ⟨alike.current, alike⟩

theorem advance_agree : Agree places (Token.Alike places) advance advance := by
  intro stream copy alike
  exact .accepted ⟨alike.current, alike.advance⟩

theorem accept_agree (expected : Expectation) (select : TokenKind → Option α) :
    Agree places (FoundAlike places) (accept expected select) (accept expected select) := by
  refine current_agree.bind fun token other same => ?_
  rw [same.kind]
  cases select other.kind with
  | some value => exact advance_agree.bind fun _ _ _ => .pure ⟨rfl, same.span⟩
  | none => exact .unexpected expected

theorem acceptKind_agree (expected : Expectation) (kind : TokenKind) :
    Agree places Eq (acceptKind expected kind) (acceptKind expected kind) :=
  (accept_agree _ _).bind fun _ _ _ => .pure rfl

theorem leftParen_agree : Agree places Eq leftParen leftParen :=
  acceptKind_agree _ _

theorem rightParen_agree : Agree places Eq rightParen rightParen :=
  acceptKind_agree _ _

theorem keyword_agree (word : Keyword) : Agree places Eq (keyword word) (keyword word) :=
  acceptKind_agree _ _

theorem openGroup_agree (word : Keyword) : Agree places Eq (openGroup word) (openGroup word) :=
  leftParen_agree.bind fun _ _ _ => keyword_agree word

theorem string_agree : Agree places Eq string string :=
  (accept_agree _ _).bind fun _ _ same => .pure same.1

theorem integer_agree : Agree places (FoundAlike places) integer integer :=
  accept_agree _ _

theorem natural_agree (expected : Expectation) :
    Agree places Eq (natural expected) (natural expected) :=
  (accept_agree _ _).bind fun _ _ same => .pure same.1

theorem valueType_agree : Agree places Eq valueType valueType :=
  (accept_agree _ _).bind fun _ _ same => .pure same.1

theorem identifier?_agree : Agree places Eq identifier? identifier? := by
  refine current_agree.bind fun token other same => ?_
  rw [same.kind]
  cases other.kind with
  | identifier name => exact advance_agree.bind fun _ _ _ => .pure rfl
  | _ => exact .pure rfl

theorem resolved_agree (expected : Expectation) (referent : Referent)
    (resolve : Identifier → Option Nat) :
    Agree places (FoundAlike places) (resolved expected referent resolve)
      (resolved expected referent resolve) := by
  refine (accept_agree _ _).bind ?_
  rintro ⟨identifier, span⟩ ⟨_, place⟩ ⟨rfl, here⟩
  cases found : resolve identifier with
  | some index =>
      simp only [found]
      exact .pure ⟨rfl, here⟩
  | none =>
      simp only [found]
      exact .fail here _

theorem closeGroups_agreement {finish stop : Span} (ended : places finish stop) (depth : Nat)
    {tokens others : List Token} (alike : List.Forall₂ (Token.Alike places) tokens others) :
    Agreement places (List.Forall₂ (Token.Alike places)) (closeGroups finish depth tokens)
      (closeGroups stop depth others) := by
  induction alike generalizing depth with
  | nil => exact .rejected rfl ended
  | @cons token other tokens others first rest ih =>
      rw [closeGroups.eq_def, closeGroups.eq_def stop]
      dsimp only
      rw [first.kind]
      split
      · exact .rejected rfl first.span
      · exact ih _
      · exact .accepted rest
      · exact ih _
      · exact ih _

theorem closeGroup_agree : Agree places Eq closeGroup closeGroup := by
  intro stream copy alike
  have closed := closeGroups_agreement alike.finish 0 alike.ahead
  rw [closeGroup_apply, closeGroup_apply]
  generalize closeGroups stream.finish 0 stream.ahead = one,
    closeGroups copy.finish 0 copy.ahead = two at closed
  cases closed with
  | rejected fault place => exact .rejected fault place
  | accepted rest => exact .accepted ⟨rfl, rest, alike.finish⟩

theorem skipGroup_agree : Agree places Eq skipGroup skipGroup :=
  leftParen_agree.bind fun _ _ _ => closeGroup_agree

theorem repeatWhile_agree {here : TokenStream → Bool} {item : Reader α}
    (shows : ∀ {stream copy}, Alike places stream copy → here stream = here copy)
    (items : Agree places Eq item item) {clock other : List Token}
    (same : clock.length = other.length) :
    Agree places Eq (repeatWhile here item clock) (repeatWhile here item other) := by
  -- Of the clock only the length is used, so the places of its tokens do not matter.
  induction clock generalizing other with
  | nil =>
      obtain rfl : other = [] := List.eq_nil_of_length_eq_zero same.symm
      refine Agree.get.bind fun stream copy alike => ?_
      rw [shows alike]
      split
      · exact .outOfFuel
      · exact .pure rfl
  | cons _ clock ih =>
      obtain ⟨_, others, rfl⟩ :=
        List.exists_cons_of_length_pos (Nat.lt_of_lt_of_eq (Nat.succ_pos _) same)
      refine Agree.get.bind fun stream copy alike => ?_
      rw [shows alike]
      split
      · refine items.bind fun first _ isFirst => ?_
        refine (ih (Nat.succ.inj same)).bind fun rest _ isRest => .pure ?_
        rw [isFirst, isRest]
      · exact .pure rfl

theorem many_agree {here : TokenStream → Bool} {item : Reader α}
    (shows : ∀ {stream copy}, Alike places stream copy → here stream = here copy)
    (items : Agree places Eq item item) : Agree places Eq (many here item) (many here item) :=
  Agree.get.bind fun _ _ alike => repeatWhile_agree shows items alike.length

theorem valueTypes_agree : Agree places Eq valueTypes valueTypes :=
  many_agree Alike.atValueType valueType_agree

theorem groupBindings_agree : Agree places Eq groupBindings groupBindings := by
  refine Agree.get.bind fun stream copy alike => ?_
  have abbreviated : atAbbreviation stream = atAbbreviation copy := by
    rw [atAbbreviation, atAbbreviation, alike.atValueType, (alike.nth 1).kind]
  rw [abbreviated]
  split
  · exact valueTypes_agree.bind fun _ _ same => .pure (congrArg _ same)
  · refine identifier?_agree.bind ?_
    rintro name _ rfl
    refine Agree.get.bind fun stream copy alike => ?_
    rw [alike.atValueType]
    split
    · refine valueType_agree.bind ?_
      rintro type _ rfl
      exact .pure rfl
    · exact .pure rfl

theorem bindings_agree (word : Keyword) : Agree places Eq (bindings word) (bindings word) := by
  have grouped : Agree places Eq (bindingGroup word) (bindingGroup word) :=
    (openGroup_agree word).bind fun _ _ _ => groupBindings_agree.bind fun _ _ same =>
      rightParen_agree.bind fun _ _ _ => .pure same
  exact (many_agree (Alike.atGroup · word) grouped).bind fun _ _ same => .pure (congrArg _ same)

theorem results_agree : Agree places Eq results results := by
  have grouped : Agree places Eq resultGroup resultGroup :=
    (openGroup_agree _).bind fun _ _ _ => valueTypes_agree.bind fun _ _ same =>
      rightParen_agree.bind fun _ _ _ => .pure same
  exact (many_agree (Alike.atGroup · .resultForm) grouped).bind fun _ _ same =>
    .pure (congrArg _ same)

section Bodies

variable (scope : Scope)

theorem definitionIndex_agree (environment : Environment) (expected : Expectation)
    (space : IndexSpace) :
    Agree places (FoundAlike places) (definitionIndex environment expected space)
      (definitionIndex environment expected space) :=
  resolved_agree _ _ _

theorem indirectType_agree : Agree places Eq (indirectType scope) (indirectType scope) := by
  have typed : Agree places Eq (typeOperand scope) (typeOperand scope) :=
    (openGroup_agree _).bind fun _ _ _ => (definitionIndex_agree _ _ _).bind fun _ _ same =>
      rightParen_agree.bind fun _ _ _ => .pure (congrArg _ same.1)
  have shows {stream copy : TokenStream} (alike : Alike places stream copy) :
      atSignatureGroup stream = atSignatureGroup copy := by
    rw [atSignatureGroup, atSignatureGroup, alike.atGroup, alike.atGroup]
  refine Agree.get.bind fun stream copy alike => ?_
  rw [alike.atGroup]
  split
  · exact (typed.map fun _ _ => congrArg some).bind fun _ _ same =>
      (many_agree shows skipGroup_agree).bind fun _ _ _ => .pure same
  · exact (many_agree shows skipGroup_agree).bind fun _ _ _ => .pure rfl

theorem word32_agree : Agree places Eq word32 word32 := by
  refine integer_agree.bind ?_
  rintro ⟨value, span⟩ ⟨_, place⟩ ⟨rfl, here⟩
  dsimp only
  split
  · exact .pure rfl
  · exact .fail here _

theorem operand_agree (opcode : Keyword) :
    Agree places Eq (operand scope opcode) (operand scope opcode) := by
  have ofIndex {reader : Reader (Nat × Span)}
      (agree : Agree places (FoundAlike places) reader reader) :
      Agree places Eq (reader >>= fun found => pure (some (Operand.index found.1)))
        (reader >>= fun found => pure (some (Operand.index found.1))) :=
    agree.bind fun _ _ same => .pure (congrArg (some ∘ Operand.index) same.1)
  cases opcode with
  | call => exact ofIndex (definitionIndex_agree _ _ _)
  | globalGet | globalSet => exact ofIndex (definitionIndex_agree _ _ _)
  | localGet | localSet | localTee => exact ofIndex (resolved_agree _ _ _)
  | br | brIf => exact ofIndex (resolved_agree _ _ _)
  | callIndirect => exact indirectType_agree scope
  | i32Const =>
      exact word32_agree.bind fun _ _ same => .pure (congrArg (some ∘ Operand.literal) same)
  | i64Const | f32Const | f64Const =>
      exact integer_agree.bind fun _ _ same => .pure (congrArg (some ∘ Operand.literal) same.1)
  | _ => exact .pure rfl

theorem plain_agree :
    Agree places (fun code other => CodeAlike places [code] [other]) (plain scope)
      (plain scope) := by
  refine current_agree.bind fun token other same => ?_
  rw [same.kind]
  cases other.kind with
  | keyword opcode =>
      dsimp only
      split
      · refine advance_agree.bind fun _ _ _ => (operand_agree scope opcode).bind ?_
        rintro operand _ rfl
        exact .pure (.plain same.span opcode operand)
      · exact .unexpected _
  | reserved word => exact .fail same.span _
  | _ => exact .unexpected _

theorem closingLabel_agree (label : Option String) :
    Agree places Eq (closingLabel label) (closingLabel label) := by
  refine current_agree.bind fun token other same => identifier?_agree.bind ?_
  rintro name _ rfl
  rw [same.kind]
  cases name with
  | none => exact .pure rfl
  | some name =>
      dsimp only
      split
      · exact .pure rfl
      · exact .fail same.span _

/-- Whether the readers of bodies agree with some fuel, in all scopes. -/
structure BodiesAgree (places : Span → Span → Prop) (fuel : Nat) : Prop where
  sequence : ∀ scope, Agree places (CodeAlike places) (sequence fuel scope) (sequence fuel scope)
  instruction : ∀ scope,
    Agree places (CodeAlike places) (instruction fuel scope) (instruction fuel scope)
  folded : ∀ scope, Agree places (CodeAlike places) (folded fuel scope) (folded fuel scope)
  operands : ∀ scope,
    Agree places (CodeAlike places) (foldedOperands fuel scope) (foldedOperands fuel scope)
  block : ∀ scope kind,
    Agree places (fun first second => first.1 = second.1 ∧ CodeAlike places [first.2] [second.2])
      (openBlock fuel scope kind) (openBlock fuel scope kind)

theorem bodiesAgree (fuel : Nat) : BodiesAgree places fuel := by
  induction fuel with
  | zero =>
      exact ⟨fun _ => .outOfFuel, fun _ => .outOfFuel, fun _ => .outOfFuel, fun _ => .outOfFuel,
        fun _ _ => .outOfFuel⟩
  | succ fuel ih =>
      refine ⟨fun scope => ?_, fun scope => ?_, fun scope => ?_, fun scope => ?_,
        fun scope kind => ?_⟩
      · refine current_agree.bind fun token other same => ?_
        rw [same.kind]
        split
        · exact .pure .nil
        · refine (ih.instruction scope).bind fun first _ begun => ?_
          exact (ih.sequence scope).bind fun rest _ followed => .pure (begun.append followed)
      · refine Agree.get.bind fun stream copy alike => ?_
        rw [alike.atLeftParen]
        split
        · exact ih.folded scope
        · refine current_agree.bind fun token other same => ?_
          rw [same.kind]
          cases other.kind.blockKind? with
          | some kind =>
              refine (ih.block scope kind).bind ?_
              rintro ⟨label, code⟩ ⟨_, more⟩ ⟨rfl, isBlock⟩
              exact (keyword_agree _).bind fun _ _ _ => (closingLabel_agree label).bind
                fun _ _ _ => .pure isBlock
          | none => exact (plain_agree scope).bind fun code _ isPlain => .pure isPlain
      · refine leftParen_agree.bind fun _ _ _ => current_agree.bind fun token other same => ?_
        rw [same.kind]
        cases other.kind.blockKind? with
        | some kind =>
            refine (ih.block scope kind).bind ?_
            rintro ⟨label, code⟩ ⟨_, more⟩ ⟨rfl, isBlock⟩
            exact rightParen_agree.bind fun _ _ _ => .pure isBlock
        | none =>
            refine (plain_agree scope).bind fun code _ isPlain => ?_
            refine (ih.operands scope).bind fun rest _ others => ?_
            exact rightParen_agree.bind fun _ _ _ => .pure (others.append isPlain)
      · refine Agree.get.bind fun stream copy alike => ?_
        rw [alike.atLeftParen]
        split
        · refine (ih.folded scope).bind fun first _ begun => ?_
          exact (ih.operands scope).bind fun rest _ followed => .pure (begun.append followed)
        · exact .pure .nil
      · refine advance_agree.bind fun first _ opening => identifier?_agree.bind ?_
        rintro label _ rfl
        refine results_agree.bind fun _ _ _ => ?_
        exact (ih.sequence (scope.enter label)).bind fun body _ inner =>
          .pure ⟨rfl, .structured opening.span kind label inner⟩

theorem body_agree (environment : Environment) (frame : Frame) :
    Agree places (CodeAlike places) (body environment frame) (body environment frame) := by
  refine Agree.get.bind fun stream copy alike => ?_
  rw [alike.length]
  exact (bodiesAgree _).sequence _

end Bodies

end Reader

end WatMachine
