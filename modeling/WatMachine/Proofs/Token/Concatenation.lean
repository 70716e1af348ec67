import WatMachine.Proofs.Token.Layouts

/-!
# Lexing behind a newline

A text that is lexed to its end ends outside of every lexeme and block
comment, and a newline behind it ends a line comment too.  So the tokens of a
text, a newline and another text are those of the first and then those of the
second, found that much later in the source.
-/

namespace WatMachine

open Source

namespace Source

/-- The position in a source with some lines before it: further back by their
bytes, and in the same column. -/
def Position.shift (bytes lines : Nat) (position : Position) : Position :=
  ⟨position.offset + bytes, position.line + lines, position.column⟩

def Span.shift (bytes lines : Nat) (span : Span) : Span :=
  ⟨span.start + bytes, span.stop + bytes, span.line + lines, span.column⟩

end Source

def Token.shift (bytes lines : Nat) (token : Token) : Token :=
  { token with span := token.span.shift bytes lines }

def LexError.shift (bytes lines : Nat) (error : LexError) : LexError :=
  { error with span := error.span.shift bytes lines }

def Cursor.shift (bytes lines : Nat) (cursor : Cursor) : Cursor :=
  { cursor with position := cursor.position.shift bytes lines }

def Lexeme.Trivia.shift (bytes lines : Nat) : Trivia → Trivia
  | .blockComment start depth => .blockComment (start.shift bytes lines) depth
  | trivia => trivia

section Shifting

variable (bytes lines : Nat)

namespace Source.Position

variable (position : Position)

theorem advance_shift (c : Char) :
    (position.shift bytes lines).advance c = (position.advance c).shift bytes lines := by
  unfold advance shift
  split
  · simp only [Position.mk.injEq, and_true]
    omega
  · simp only [Position.mk.injEq, and_true]
    omega

theorem after_shift (characters : List Char) :
    (position.shift bytes lines).after characters =
      (position.after characters).shift bytes lines := by
  induction characters generalizing position with
  | nil => rfl
  | cons c characters ih => rw [after_cons, advance_shift, ih, after_cons]

theorem spanTo_shift (stop : Position) :
    (position.shift bytes lines).spanTo (stop.shift bytes lines) =
      (position.spanTo stop).shift bytes lines :=
  rfl

/-- The position behind a text and a newline is the first one of a source, with
the text and the newline before it. -/
theorem first_after_newline (characters : List Char) :
    (first.after characters).advance '\n' =
      first.shift ((String.ofList characters).utf8ByteSize + 1) (characters.count '\n' + 1) := by
  have offset := first.offset_after characters
  have line := first.line_after characters
  have width : '\n'.utf8Size = 1 := rfl
  simp only [advance, shift, if_true, offset, line, width, Nat.add_assoc]
  rfl

end Source.Position

namespace Lexeme

theorem skipTrivia_shift (trivia : Trivia) (position : Position) (text : List Char) :
    skipTrivia (trivia.shift bytes lines) (position.shift bytes lines) text =
      ((skipTrivia trivia position text).map (Cursor.shift bytes lines)).mapError
        (LexError.shift bytes lines) := by
  fun_induction skipTrivia trivia position text with
  | case1 position => rfl
  | case2 position rest ih =>
      rw [← ih, ← Position.after_shift]
      simp only [Trivia.shift, skipTrivia]
  | case3 position rest ih =>
      rw [← ih, ← Position.after_shift]
      simp only [Trivia.shift, skipTrivia]
  | case4 position c rest noBlock noLine blank ih =>
      rw [← ih, ← Position.advance_shift]
      simp only [Trivia.shift]
      rw [skipTrivia, if_pos blank]
      · exact noBlock
      · exact noLine
  | case5 position c rest noBlock noLine other =>
      simp only [Trivia.shift]
      rw [skipTrivia, if_neg other]
      · rfl
      · exact noBlock
      · exact noLine
  | case6 position => rfl
  | case7 position c rest ih =>
      rw [← ih, ← Position.advance_shift]
      split <;> simp_all only [Trivia.shift, skipTrivia, if_true, if_false]
  | case8 start depth position =>
      simp only [Trivia.shift, skipTrivia]
      rfl
  | case9 start depth position rest ih =>
      rw [← ih, ← Position.after_shift]
      simp only [Trivia.shift, skipTrivia]
  | case10 start position rest ih =>
      rw [← ih, ← Position.after_shift]
      simp only [Trivia.shift, skipTrivia]
  | case11 start depth position rest ih =>
      rw [← ih, ← Position.after_shift]
      simp only [Trivia.shift, skipTrivia]
  | case12 start depth position c rest noOpening noOuterClosing noInnerClosing ih =>
      rw [← ih, ← Position.advance_shift]
      simp only [Trivia.shift]
      rw [skipTrivia]
      · exact noOpening
      · exact noOuterClosing
      · exact noInnerClosing

theorem stringBody_shift (start position : Position) (text : List Char) :
    stringBody (start.shift bytes lines) (position.shift bytes lines) text =
      (stringBody start position text).mapError (LexError.shift bytes lines) := by
  fun_induction stringBody start position text with
  | case1 position => rfl
  | case2 position rest =>
      rw [stringBody]
      rfl
  | case3 position rest ih =>
      rw [stringBody, Position.after_shift, ih]
      cases stringBody start (position.after ['\\', '"']) rest <;> rfl
  | case4 position rest noQuote noEscape =>
      rw [stringBody, if_pos rfl, Position.advance_shift]
      · rfl
      · exact noQuote
      · exact noEscape
  | case5 position c rest noQuote noEscape plain ih =>
      rw [stringBody, if_neg plain, Position.advance_shift, ih]
      · cases stringBody start (position.advance c) rest <;> rfl
      · exact noQuote
      · exact noEscape

theorem ofString_shift (start : Position) (text : List Char) :
    ofString (start.shift bytes lines) text =
      (ofString start text).mapError (LexError.shift bytes lines) := by
  rw [ofString, ofString, Position.advance_shift, stringBody_shift]
  cases stringBody start (start.advance '"') text <;> rfl

theorem ofInteger_shift (start : Position) (text : List Char) :
    ofInteger (start.shift bytes lines) text =
      (ofInteger start text).mapError (LexError.shift bytes lines) := by
  unfold ofInteger
  dsimp only
  split
  · rfl
  · rw [Position.after_shift]
    rfl

theorem ofIdentifier_shift (start : Position) (text : List Char) :
    ofIdentifier (start.shift bytes lines) text =
      (ofIdentifier start text).mapError (LexError.shift bytes lines) := by
  unfold ofIdentifier
  split
  · rw [Position.advance_shift]
    rfl
  · rfl

theorem read_shift (start : Position) (text : List Char) :
    Lexeme.read (start.shift bytes lines) text =
      (Lexeme.read start text).mapError (LexError.shift bytes lines) := by
  cases text with
  | nil => rfl
  | cons c text =>
      rw [Lexeme.read, Lexeme.read, ofString_shift, ofInteger_shift, ofIdentifier_shift,
        Position.advance_shift, Position.spanTo_shift]
      repeat' split
      all_goals rfl

end Lexeme

namespace Cursor

theorem next_shift (cursor : Cursor) :
    (cursor.shift bytes lines).next =
      (cursor.next.map fun (token, after) =>
        (token.shift bytes lines, after.shift bytes lines)).mapError
          (LexError.shift bytes lines) := by
  have skipped := Lexeme.skipTrivia_shift bytes lines .blank cursor.position cursor.rest
  unfold Cursor.next
  simp only [Cursor.shift, Lexeme.Trivia.shift] at skipped ⊢
  rw [skipped]
  cases Lexeme.skipTrivia .blank cursor.position cursor.rest with
  | error error => rfl
  | ok cursor =>
      obtain ⟨start, text⟩ := cursor
      have read := Lexeme.read_shift bytes lines start text
      simp only [Except.map, Except.mapError, bind, Except.bind, Cursor.shift, read]
      cases Lexeme.read start text with
      | error error => rfl
      | ok lexeme =>
          simp only [Position.after_shift, Position.spanTo_shift, Token.shift]

/-- Text that stands later in its source has the same tokens, or the same
error, later. -/
theorem tokens_shift (cursor : Cursor) :
    (cursor.shift bytes lines).tokens =
      (cursor.tokens.map (List.map (Token.shift bytes lines))).mapError
        (LexError.shift bytes lines) := by
  induction cursor using induct_steps with
  | @fails cursor error failed =>
      have stepped := next_shift bytes lines cursor
      rw [failed] at stepped
      rw [tokens_of_error failed, tokens_of_error stepped]
      rfl
  | @ends cursor token after next ended =>
      have stepped := next_shift bytes lines cursor
      rw [next] at stepped
      rw [tokens_of_end next ended, tokens_of_end stepped ended]
      rfl
  | @step cursor token after next continues ih =>
      have stepped := next_shift bytes lines cursor
      rw [next] at stepped
      rw [tokens_of_next next continues, tokens_of_next stepped continues, ih]
      cases after.tokens <;> rfl

end Cursor

end Shifting

/-- A newline ends the last gap of a text, whatever the gap ends with. -/
theorem Gap.newline {isLast : Bool} {gap : List Char} (isGap : Gap isLast gap) :
    Gap false (gap ++ ['\n']) := by
  induction isGap with
  | nil => exact .blank (by decide) .nil
  | blank blank _ ih => exact .blank blank ih
  | @lineComment text rest oneLine stops _ ih =>
      have stillStops : (rest ++ ['\n']).head? = some '\n' := by
        rcases stops with newline | ⟨rfl, _⟩
        · simp [newline]
        · rfl
      rw [List.cons_append, List.cons_append, List.append_assoc]
      exact .lineComment oneLine (.inl stillStops) ih
  | blockComment within _ ih =>
      rw [List.cons_append, List.cons_append, List.append_assoc]
      exact .blockComment within ih

/-- A blank ends a gap that is no comment. -/
theorem Gap.append_blank {isLast : Bool} {gap : List Char} (isGap : Gap isLast gap)
    (noComment : ';' ∉ gap) : Gap false (gap ++ [' ']) := by
  induction isGap with
  | nil => exact .blank (by decide) .nil
  | blank blank _ ih => exact .blank blank (ih (mt (List.mem_cons_of_mem _) noComment))
  | lineComment _ _ _ _ => simp at noComment
  | blockComment _ _ _ => simp at noComment

section Separator

variable {separator : Char} (more : List Char)

theorem Lexeme.isWordChar_of_isBlank {c : Char} (blank : isBlank c = true) :
    isWordChar c = false := by
  simp only [isBlank, Bool.or_eq_true, beq_iff_eq] at blank
  rcases blank with (((rfl | rfl) | rfl) | rfl) | rfl <;> decide

theorem head?_before_separator {text : List Char} {c : Char}
    (first : (text ++ separator :: more).head? = some c) :
    text.head? = some c ∨ c = separator := by
  cases text with
  | nil => exact .inr (Option.some.inj first).symm
  | cons d text => exact .inl first

theorem Lexeme.Stops.before_blank (blank : isBlank separator = true) {kind : TokenKind}
    {rest : List Char} (stops : Stops kind rest) : Stops kind (rest ++ separator :: more) := by
  intro runsOn c first
  rcases head?_before_separator more first with inside | rfl
  · exact stops runsOn c inside
  · exact isWordChar_of_isBlank blank

namespace Cursor

variable {cursor after : Cursor} {token : Token}

/-- A token that is not the end of the input is found in front of a blank as at
the end of the text. -/
theorem next_before_blank_of_token (blank : Lexeme.isBlank separator = true)
    (stepped : cursor.next = .ok (token, after)) (continues : token.isEnd = false) :
    next ⟨cursor.position, cursor.rest ++ separator :: more⟩ =
      .ok (token, ⟨after.position, after.rest ++ separator :: more⟩) := by
  rcases next_spells stepped with ⟨isEnd, _⟩ | ⟨gap, shape, isGap, spells, stops, apart⟩
  · exact absurd isEnd (beq_eq_false_iff_ne.mp continues)
  · have stillApart : token.kind = .leftParen →
        (after.rest ++ separator :: more).head? ≠ some ';' := by
      intro isLeft follows
      rcases head?_before_separator more follows with inside | rfl
      · exact apart isLeft inside
      · cases blank
    have alone := next_of_spells isGap spells stops apart cursor.position
    rw [← shape, stepped] at alone
    have behind :=
      next_of_spells isGap spells (stops.before_blank more blank) stillApart cursor.position
    obtain ⟨isToken, isAfter⟩ := Prod.mk.inj (Except.ok.inj alone)
    have place := congrArg Cursor.position isAfter
    rw [shape, List.append_assoc, behind, ← isToken, place]

/-- At the end of a text, lexing goes on behind a blank that ends its last
gap. -/
theorem next_before_blank_of_end (isGap : Gap false (cursor.rest ++ [separator])) :
    next ⟨cursor.position, cursor.rest ++ separator :: more⟩ =
      next ⟨(cursor.position.after cursor.rest).advance separator, more⟩ := by
  rw [← List.singleton_append, ← List.append_assoc, next_of_gap isGap (by simp),
    Position.after_append]
  rfl

/-- The tokens of a text with a blank and more text behind it.  The blank has
to end what the text ends with. -/
theorem tokens_before_blank (blank : Lexeme.isBlank separator = true) {tokens : List Token}
    (lexed : cursor.tokens = .ok tokens)
    (ends : ∀ gap, gap <:+ cursor.rest → Gap true gap → Gap false (gap ++ [separator])) :
    Cursor.tokens ⟨cursor.position, cursor.rest ++ separator :: more⟩ =
      (Cursor.tokens ⟨(cursor.position.after cursor.rest).advance separator, more⟩).map
        (tokens.filter (!·.isEnd) ++ ·) := by
  induction cursor using induct_steps generalizing tokens with
  | fails failed =>
      rw [tokens_of_error failed] at lexed
      cases lexed
  | @ends cursor token after stepped ended =>
      rw [tokens_of_end stepped ended] at lexed
      cases lexed
      have nothing : [token].filter (!·.isEnd) = [] := by simp [ended]
      have isGap : Gap true cursor.rest := by
        rcases next_spells stepped with ⟨_, _, isGap⟩ | ⟨_, _, _, spells, _⟩
        · exact isGap
        · exact absurd (beq_iff_eq.mp ended) spells.notEnd
      have closed := ends cursor.rest List.suffix_rfl isGap
      rw [tokens_congr (next_before_blank_of_end more closed), nothing]
      cases Cursor.tokens ⟨(cursor.position.after cursor.rest).advance separator, more⟩ <;> rfl
  | @step cursor token after stepped continues ih =>
      rw [tokens_of_next stepped continues] at lexed
      cases others : after.tokens with
      | error error =>
          rw [others] at lexed
          cases lexed
      | ok rest =>
          rw [others] at lexed
          cases lexed
          have first : (token :: rest).filter (!·.isEnd) = token :: rest.filter (!·.isEnd) := by
            simp [continues]
          have later : after.rest <:+ cursor.rest := by
            rcases next_spells stepped with ⟨isEnd, _⟩ | ⟨gap, shape, _⟩
            · exact absurd isEnd (beq_eq_false_iff_ne.mp continues)
            · exact ⟨_, shape.symm⟩
          rw [tokens_of_next (next_before_blank_of_token more blank stepped continues) continues,
            ih others fun gap inside => ends gap (inside.trans later),
            after_next stepped continues, first]
          cases Cursor.tokens ⟨(cursor.position.after cursor.rest).advance separator, more⟩ <;> rfl

end Cursor

end Separator

/-- The tokens of a text with a newline and more text behind it. -/
theorem Cursor.tokens_newline {cursor : Cursor} {tokens : List Token} (more : List Char)
    (lexed : cursor.tokens = .ok tokens) :
    Cursor.tokens ⟨cursor.position, cursor.rest ++ '\n' :: more⟩ =
      (Cursor.tokens ⟨(cursor.position.after cursor.rest).advance '\n', more⟩).map
        (tokens.filter (!·.isEnd) ++ ·) :=
  tokens_before_blank more (by decide) lexed fun _ _ isGap => isGap.newline

/-- Lexing two texts with a newline between them.  If the first one is lexed to
its end, its tokens without the end of the input come first, and then those of
the second text, or its error, with their spans shifted by the bytes and the
lines before it. -/
theorem tokenise_append_newline {first : String} {tokens : List Token}
    (lexed : tokenise first = .ok tokens) (second : String) :
    let bytes := first.utf8ByteSize + 1
    let lines := first.toList.count '\n' + 1
    tokenise (first ++ "\n" ++ second) =
      match tokenise second with
      | .ok others => .ok (tokens.filter (!·.isEnd) ++ others.map (Token.shift bytes lines))
      | .error error => .error (error.shift bytes lines) := by
  intro bytes lines
  have text : (first ++ "\n" ++ second).toList = first.toList ++ '\n' :: second.toList := by
    simp
  have place : (Position.first.after first.toList).advance '\n' =
      Position.first.shift bytes lines := by
    rw [Position.first_after_newline, String.ofList_toList]
  have joined := Cursor.tokens_newline second.toList lexed
  have shifted := Cursor.tokens_shift bytes lines (.ofCharacters second.toList)
  simp only [Cursor.ofCharacters, Cursor.shift] at joined shifted
  rw [tokenise_eq_tokens, text, Cursor.ofCharacters, joined, place, shifted,
    tokenise_eq_tokens second, Cursor.ofCharacters]
  cases Cursor.tokens ⟨Position.first, second.toList⟩ <;> rfl

/-- A text that ends inside a line comment does not take the next line into
it, and the error there is found where it stands. -/
theorem tokenise_append_newline_commented :
    let tokens : List Token := [⟨.leftParen, "(", ⟨0, 1, 1, 1⟩⟩, .endAt ⟨8, 8, 2, 6⟩]
    tokenise "(\n;; é;" = .ok tokens ∧
      tokenise ("(\n;; é;" ++ "\n" ++ ") \"") = .error ⟨.unterminatedString, ⟨11, 12, 3, 3⟩⟩ ∧
      tokenise ("(\n;; é;" ++ "\n" ++ ")") = .ok [⟨.leftParen, "(", ⟨0, 1, 1, 1⟩⟩,
        ⟨.rightParen, ")", ⟨9, 10, 3, 1⟩⟩, .endAt ⟨10, 10, 3, 2⟩] := by
  intro tokens
  have lexed : tokenise "(\n;; é;" = .ok tokens := by decide +kernel
  have fails : tokenise ") \"" = .error ⟨.unterminatedString, ⟨2, 3, 1, 3⟩⟩ := by decide +kernel
  have closes : tokenise ")" = .ok [⟨.rightParen, ")", ⟨0, 1, 1, 1⟩⟩, .endAt ⟨1, 1, 1, 2⟩] := by
    decide +kernel
  refine ⟨lexed, ?_, ?_⟩
  · rw [tokenise_append_newline lexed, fails]
    decide +kernel
  · rw [tokenise_append_newline lexed, closes]
    decide +kernel

end WatMachine
