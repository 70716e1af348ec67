import WatMachine.Grammar.Reader

/-!
# What readers take

A reader that succeeds takes some tokens from the front of its stream and
leaves the rest.  Readers of one token take it exactly if it is of the kind
that they ask for.
-/

namespace WatMachine

namespace TokenKind

theorem keyword?_eq_some {kind : TokenKind} {word : Keyword} :
    kind.keyword? = some word ↔ kind = .keyword word := by
  cases kind <;> simp [keyword?]

theorem identifier?_eq_some {kind : TokenKind} {name : String} :
    kind.identifier? = some name ↔ kind = .identifier name := by
  cases kind <;> simp [identifier?]

end TokenKind

namespace TokenStream

/-- The stream with more tokens in front. -/
def prepend (tokens : List Token) (stream : TokenStream) : TokenStream :=
  { stream with ahead := tokens ++ stream.ahead }

variable (stream : TokenStream) (token : Token) (tokens more : List Token)

@[simp]
theorem prepend_nil : stream.prepend [] = stream :=
  rfl

theorem prepend_append :
    stream.prepend (tokens ++ more) = (stream.prepend more).prepend tokens := by
  simp [prepend]

theorem prepend_cons :
    stream.prepend (token :: tokens) = (stream.prepend tokens).prepend [token] :=
  rfl

@[simp]
theorem ahead_prepend : (stream.prepend tokens).ahead = tokens ++ stream.ahead :=
  rfl

@[simp]
theorem current_prepend_cons : (stream.prepend (token :: tokens)).current = token :=
  rfl

@[simp]
theorem nth_zero_prepend_cons : (stream.prepend (token :: tokens)).nth 0 = token :=
  rfl

@[simp]
theorem nth_succ_prepend_cons (distance : Nat) :
    (stream.prepend (token :: tokens)).nth (distance + 1) =
      (stream.prepend tokens).nth distance :=
  rfl

theorem ofTokens_concat (front : List Token) (last : Token) :
    ofTokens (front ++ [last]) =
      if last.isEnd then ⟨front, last.span⟩ else ⟨front ++ [last], last.span.behind⟩ := by
  simp [ofTokens]

theorem prepend_inj {stream : TokenStream} {tokens more : List Token} :
    stream.prepend tokens = stream.prepend more ↔ tokens = more := by
  simp [prepend]

theorem advance_prepend_of_not_end {token : Token} (inside : token.isEnd = false) :
    (stream.prepend [token]).advance = stream := by
  rw [advance, current_prepend_cons, inside]
  rfl

theorem isEnd_or_exists_prepend :
    stream.current.isEnd ∨ ∃ token after, stream = prepend [token] after ∧ token.isEnd = false := by
  obtain ⟨ahead, finish⟩ := stream
  cases ahead with
  | nil => exact .inl rfl
  | cons token ahead =>
      cases ended : token.isEnd with
      | true => exact .inl ended
      | false => exact .inr ⟨token, ⟨ahead, finish⟩, rfl, ended⟩

end TokenStream

open TokenStream

namespace Reader

variable {α β : Type}

/-- Whether a reader takes exactly the tokens of a language.  What it takes is
in the language, and what is in the language is taken wherever the rest of the
stream does not make the reader go on. -/
structure Reads (reader : Reader α) (language : List Token → α → Prop)
    (follows : TokenStream → Prop) : Prop where
  sound : ∀ {stream value after}, reader stream = .ok (value, after) →
    ∃ tokens, stream = after.prepend tokens ∧ language tokens value
  complete : ∀ {tokens value} (after : TokenStream), language tokens value → follows after →
    reader (after.prepend tokens) = .ok (value, after)

/-- What a reader takes of a language is determined by the stream. -/
theorem Reads.unique {reader : Reader α} {language : List Token → α → Prop}
    {follows : TokenStream → Prop} (reads : Reads reader language follows)
    {tokens others : List Token} {value other : α} {after behind : TokenStream}
    (first : language tokens value) (second : language others other) (follow : follows after)
    (alsoFollow : follows behind) (same : after.prepend tokens = behind.prepend others) :
    value = other ∧ after = behind := by
  have read := reads.complete after first follow
  rw [same, reads.complete behind second alsoFollow] at read
  cases read
  exact ⟨rfl, rfl⟩

@[simp]
theorem pure_apply (value : α) (stream : TokenStream) :
    (pure value : Reader α) stream = .ok (value, stream) :=
  rfl

@[simp]
theorem get_apply (stream : TokenStream) :
    (get : Reader TokenStream) stream = .ok (stream, stream) :=
  rfl

@[simp]
theorem set_apply (stream after : TokenStream) :
    (set after : Reader PUnit) stream = .ok (⟨⟩, after) :=
  rfl

@[simp]
theorem throw_apply (error : ParseError) (stream : TokenStream) :
    (throw error : Reader α) stream = .error error :=
  rfl

@[simp]
theorem fail_apply (fault : ParseFault) (span : Source.Span) (stream : TokenStream) :
    (fail fault span : Reader α) stream = .error ⟨fault, span⟩ :=
  rfl

@[simp]
theorem outOfFuel_apply (stream : TokenStream) :
    (outOfFuel : Reader α) stream = .error ⟨.outOfFuel, stream.current.span⟩ :=
  rfl

@[simp]
theorem unexpected_apply (expected : Expectation) (stream : TokenStream) :
    (unexpected expected : Reader α) stream = .error (stream.unexpected expected) :=
  rfl

@[simp]
theorem current_apply (stream : TokenStream) :
    current stream = .ok (stream.current, stream) :=
  rfl

@[simp]
theorem advance_apply (stream : TokenStream) :
    advance stream = .ok (stream.current, stream.advance) :=
  rfl

/-- The second of two readers goes on where the first one stops. -/
@[simp]
theorem bind_apply (first : Reader α) (next : α → Reader β) (stream : TokenStream) :
    (first >>= next) stream =
      match first stream with
      | .ok (value, after) => next value after
      | .error error => .error error := by
  rcases read : first stream with _ | ⟨value, after⟩ <;>
    simp [bind, StateT.bind, read] <;> rfl

@[simp]
theorem map_apply (change : α → β) (reader : Reader α) (stream : TokenStream) :
    (change <$> reader) stream =
      match reader stream with
      | .ok (value, after) => .ok (change value, after)
      | .error error => .error error := by
  rw [← bind_pure_comp, bind_apply]
  rfl

theorem bind_eq_ok {first : Reader α} {next : α → Reader β} {stream after : TokenStream}
    {result : β} :
    (first >>= next) stream = .ok (result, after) ↔
      ∃ value middle, first stream = .ok (value, middle) ∧
        next value middle = .ok (result, after) := by
  rw [bind_apply]
  rcases first stream with _ | ⟨value, middle⟩ <;> simp [and_assoc]

theorem accept_of_some {expected : Expectation} {select : TokenKind → Option α}
    {stream : TokenStream} {value : α} (selected : select stream.current.kind = some value) :
    accept expected select stream = .ok ((value, stream.current.span), stream.advance) := by
  simp [accept, selected]

theorem accept_of_none {expected : Expectation} {select : TokenKind → Option α}
    {stream : TokenStream} (passes : select stream.current.kind = none) :
    accept expected select stream = .error (stream.unexpected expected) := by
  simp [accept, passes]

/-- A reader of one token takes it if it is of the kind that it asks for, and
never takes the end of input. -/
theorem accept_eq_ok {expected : Expectation} {select : TokenKind → Option α}
    (passes : select .endOfInput = none) {stream after : TokenStream} {value : α}
    {span : Source.Span} :
    accept expected select stream = .ok ((value, span), after) ↔
      ∃ token, stream = after.prepend [token] ∧ select token.kind = some value ∧
        token.span = span := by
  have inside {token : Token} {found : α} (selected : select token.kind = some found) :
      token.isEnd = false := by
    cases ended : token.isEnd with
    | false => rfl
    | true =>
        have kind : token.kind = .endOfInput := by simpa [Token.isEnd] using ended
        rw [kind, passes] at selected
        cases selected
  constructor
  · intro read
    cases selected : select stream.current.kind with
    | none =>
        rw [accept_of_none selected] at read
        cases read
    | some found =>
        rw [accept_of_some selected] at read
        cases read
        rcases stream.isEnd_or_exists_prepend with ended | ⟨token, behind, rfl, notEnd⟩
        · rw [inside selected] at ended
          cases ended
        · exact ⟨token, by rw [advance_prepend_of_not_end _ notEnd], selected, rfl⟩
  · rintro ⟨token, rfl, selected, rfl⟩
    have accepted : accept expected select (after.prepend [token]) = _ := accept_of_some selected
    rwa [advance_prepend_of_not_end _ (inside selected)] at accepted

theorem acceptKind_eq_ok {expected : Expectation} {kind : TokenKind} (inside : kind ≠ .endOfInput)
    {stream after : TokenStream} :
    acceptKind expected kind stream = .ok ((), after) ↔
      ∃ token, stream = after.prepend [token] ∧ token.kind = kind := by
  rw [acceptKind, bind_eq_ok]
  constructor
  · rintro ⟨⟨⟨⟩, span⟩, middle, accepted, ended⟩
    cases ended
    obtain ⟨token, rfl, selected, -⟩ := (accept_eq_ok (if_neg inside.symm)).mp accepted
    exact ⟨token, rfl, by simpa using selected⟩
  · rintro ⟨token, rfl, rfl⟩
    exact ⟨_, after, (accept_eq_ok (if_neg inside.symm)).mpr ⟨token, rfl, if_pos rfl, rfl⟩, rfl⟩

theorem leftParen_eq_ok {stream after : TokenStream} :
    leftParen stream = .ok ((), after) ↔
      ∃ token, stream = after.prepend [token] ∧ token.kind = .leftParen :=
  acceptKind_eq_ok (by decide)

theorem rightParen_eq_ok {stream after : TokenStream} :
    rightParen stream = .ok ((), after) ↔
      ∃ token, stream = after.prepend [token] ∧ token.kind = .rightParen :=
  acceptKind_eq_ok (by decide)

theorem keyword_eq_ok {word : Keyword} {stream after : TokenStream} :
    keyword word stream = .ok ((), after) ↔
      ∃ token, stream = after.prepend [token] ∧ token.kind = .keyword word :=
  acceptKind_eq_ok (by simp)

theorem openGroup_eq_ok {word : Keyword} {stream after : TokenStream} :
    openGroup word stream = .ok ((), after) ↔
      ∃ left head, stream = after.prepend [left, head] ∧ left.kind = .leftParen ∧
        head.kind = .keyword word := by
  rw [openGroup, bind_eq_ok]
  constructor
  · rintro ⟨⟨⟩, middle, opened, named⟩
    obtain ⟨left, rfl, isLeft⟩ := leftParen_eq_ok.mp opened
    obtain ⟨head, rfl, isHead⟩ := keyword_eq_ok.mp named
    exact ⟨left, head, rfl, isLeft, isHead⟩
  · rintro ⟨left, head, rfl, isLeft, isHead⟩
    exact ⟨(), after.prepend [head], leftParen_eq_ok.mpr ⟨left, rfl, isLeft⟩,
      keyword_eq_ok.mpr ⟨head, rfl, isHead⟩⟩

theorem string_eq_ok {stream after : TokenStream} {value : String} :
    string stream = .ok (value, after) ↔
      ∃ token, stream = after.prepend [token] ∧ token.kind = .string value := by
  have select (kind : TokenKind) : stringValue? kind = some value ↔ kind = .string value := by
    cases kind <;> simp [stringValue?]
  rw [string, bind_eq_ok]
  constructor
  · rintro ⟨⟨_, span⟩, middle, accepted, ended⟩
    cases ended
    obtain ⟨token, rfl, selected, -⟩ := (accept_eq_ok rfl).mp accepted
    exact ⟨token, rfl, (select _).mp selected⟩
  · rintro ⟨token, rfl, isString⟩
    exact ⟨_, after, (accept_eq_ok rfl).mpr ⟨token, rfl, (select _).mpr isString, rfl⟩, rfl⟩

theorem integer_eq_ok {stream after : TokenStream} {value : Int} {span : Source.Span} :
    integer stream = .ok ((value, span), after) ↔
      ∃ token, stream = after.prepend [token] ∧ token.kind = .integer value ∧
        token.span = span := by
  have select (kind : TokenKind) : integerValue? kind = some value ↔ kind = .integer value := by
    cases kind <;> simp [integerValue?]
  simp only [integer, accept_eq_ok (rfl : integerValue? .endOfInput = none), select]

theorem valueType_eq_ok {stream after : TokenStream} {type : ValueType} :
    valueType stream = .ok (type, after) ↔
      ∃ token, stream = after.prepend [token] ∧ token.kind = .keyword type.keyword := by
  have select (kind : TokenKind) :
      kind.keyword?.bind ValueType.ofKeyword? = some type ↔ kind = .keyword type.keyword := by
    cases kind with
    | keyword word => cases word <;> cases type <;> decide
    | _ => simp [TokenKind.keyword?]
  rw [valueType, bind_eq_ok]
  constructor
  · rintro ⟨⟨_, span⟩, middle, accepted, ended⟩
    cases ended
    obtain ⟨token, rfl, selected, -⟩ := (accept_eq_ok rfl).mp accepted
    exact ⟨token, rfl, (select _).mp selected⟩
  · rintro ⟨token, rfl, isType⟩
    exact ⟨_, after, (accept_eq_ok rfl).mpr ⟨token, rfl, (select _).mpr isType, rfl⟩, rfl⟩

end Reader

end WatMachine
