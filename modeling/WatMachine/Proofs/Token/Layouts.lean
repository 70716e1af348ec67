import WatMachine.Proofs.Token.Lexemes

/-!
# Layouts of a source

A source is a sequence of lexemes with gaps around them.  A gap may be empty
wherever the lexemes on both sides of it do not run together.  The lexer
accepts exactly the texts that are laid out like this, and gives tokens of the
kinds of the lexemes.
-/

namespace WatMachine

open Source Lexeme

/-- Whether a text is lexemes of some kinds, in their order, with gaps around
them.  A lexeme ends where the text behind it begins, and a parenthesis does
not open a comment there. -/
inductive LaidOut : List TokenKind → List Char → Prop where
  | last {gap : List Char} (isGap : Gap true gap) : LaidOut [] gap
  | next {kind : TokenKind} {kinds : List TokenKind} {gap characters rest : List Char}
      (isGap : Gap false gap) (spells : Spells kind characters) (stops : Stops kind rest)
      (apart : kind = .leftParen → rest.head? ≠ some ';') (others : LaidOut kinds rest) :
      LaidOut (kind :: kinds) (gap ++ characters ++ rest)

namespace Lexeme

/-- Whether a character can be the first one of a lexeme of several. -/
def Opens (c : Char) : Prop :=
  isBlank c = false ∧ c ≠ ';' ∧ c ≠ '('

instance (c : Char) : Decidable (Opens c) :=
  inferInstanceAs (Decidable (_ ∧ _ ∧ _))

theorem opens_of_accepted {accepts : Char → Bool} {c : Char} (accepted : accepts c = true)
    (others : [' ', '\t', '\n', '\r', '\x0c', ';', '('].any accepts = false) : Opens c := by
  have other {d : Char} (among : d ∈ [' ', '\t', '\n', '\r', '\x0c', ';', '(']) : c ≠ d := by
    rintro rfl
    exact List.any_eq_false.mp others c among accepted
  refine ⟨?_, other (by simp), other (by simp)⟩
  simp only [isBlank, Bool.or_eq_false_iff, beq_eq_false_iff_ne]
  exact ⟨⟨⟨⟨other (by simp), other (by simp)⟩, other (by simp)⟩, other (by simp)⟩, other (by simp)⟩

theorem opens_of_number {c : Char} (first : c = '+' ∨ c = '-' ∨ c.isDigit = true) : Opens c := by
  rcases first with rfl | rfl | digit
  · decide
  · decide
  · exact opens_of_accepted digit rfl

theorem IsWord.opens {characters : List Char} (isWord : IsWord characters) :
    ∃ c others, characters = c :: others ∧ Opens c := by
  obtain ⟨c, first, lower⟩ := isWord.lower
  obtain ⟨others, rfl⟩ := List.head?_eq_some_iff.mp (Option.mem_def.mp first)
  exact ⟨c, others, rfl, opens_of_accepted lower rfl⟩

/-- A lexeme does not begin like trivia: a parenthesis is nothing but itself. -/
theorem Spells.opens {kind : TokenKind} {characters : List Char}
    (spells : Spells kind characters) :
    kind = .leftParen ∧ characters = ['('] ∨
      ∃ c others, characters = c :: others ∧ Opens c := by
  cases spells with
  | leftParen => exact .inl ⟨rfl, rfl⟩
  | rightParen => exact .inr ⟨_, _, rfl, by decide⟩
  | string _ => exact .inr ⟨_, _, rfl, by decide⟩
  | integer signed digits number =>
      obtain ⟨c, others, shape, first⟩ := first_of_signed signed []
      rw [List.append_nil] at shape
      exact .inr ⟨c, others, shape, opens_of_number first⟩
  | identifier _ _ => exact .inr ⟨_, _, rfl, by decide⟩
  | keyword isWord _ => exact .inr isWord.opens
  | reserved isWord _ => exact .inr isWord.opens

/-- No trivia is skipped in front of a character that opens a lexeme. -/
theorem skipTrivia_of_opens {c : Char} (opens : Opens c) (position : Position)
    (rest : List Char) :
    skipTrivia .blank position (c :: rest) = .ok ⟨position, c :: rest⟩ := by
  obtain ⟨noBlank, noLine, noBlock⟩ := opens
  rw [skipTrivia, if_neg (by simp [noBlank])]
  · intro _ isParen
    exact absurd isParen noBlock
  · intro _ isSemicolon
    exact absurd isSemicolon noLine

/-- No trivia is skipped in front of a lexeme. -/
theorem skipTrivia_of_spells {kind : TokenKind} {characters rest : List Char}
    (spells : Spells kind characters) (apart : kind = .leftParen → rest.head? ≠ some ';')
    (position : Position) :
    skipTrivia .blank position (characters ++ rest) = .ok ⟨position, characters ++ rest⟩ := by
  rcases spells.opens with ⟨isLeft, rfl⟩ | ⟨c, others, rfl, opens⟩
  · rw [List.singleton_append, skipTrivia, if_neg (by decide)]
    · rintro behind _ rfl
      exact apart isLeft rfl
    · rintro _ ⟨⟩
  · exact skipTrivia_of_opens opens position (others ++ rest)

/-- Where skipping stops, no comment begins. -/
theorem skipTrivia_stops {trivia : Trivia} {position : Position} {text : List Char}
    {cursor : Cursor} (skips : skipTrivia trivia position text = .ok cursor) :
    ¬['(', ';'] <+: cursor.rest := by
  fun_induction skipTrivia trivia position text with
  | case1 | case6 =>
      cases skips
      exact List.prefix_nil.not.mpr (List.cons_ne_nil _ _)
  | case5 position c rest noBlock _ _ =>
      cases skips
      rintro ⟨behind, shape⟩
      cases shape
      exact noBlock _ rfl rfl
  | case8 => cases skips
  | case2 _ _ ih | case3 _ _ ih | case4 _ _ _ _ _ _ ih | case7 _ _ _ ih | case9 _ _ _ _ ih
  | case10 _ _ _ ih | case11 _ _ _ _ ih | case12 _ _ _ _ _ _ _ _ ih => exact ih skips

theorem Spells.notEnd {kind : TokenKind} {characters : List Char}
    (spells : Spells kind characters) : kind ≠ .endOfInput := by
  rintro rfl
  cases spells

end Lexeme

namespace Cursor

theorem next_of_gap {isLast : Bool} {gap rest : List Char} (isGap : Gap isLast gap)
    (ends : isLast = true → rest = []) (position : Position) :
    next ⟨position, gap ++ rest⟩ = next ⟨position.after gap, rest⟩ := by
  unfold next
  rw [skipTrivia_of_gap isGap ends]

/-- A lexeme behind a gap is the next token. -/
theorem next_of_spells {kind : TokenKind} {gap characters rest : List Char}
    (isGap : Gap false gap) (spells : Spells kind characters) (stops : Stops kind rest)
    (apart : kind = .leftParen → rest.head? ≠ some ';') (position : Position) :
    next ⟨position, gap ++ characters ++ rest⟩ =
      .ok (⟨kind, String.ofList characters,
          (position.after gap).spanTo (position.after (gap ++ characters))⟩,
        ⟨position.after (gap ++ characters), rest⟩) := by
  rw [List.append_assoc, next_of_gap isGap (by simp)]
  unfold next
  rw [skipTrivia_of_spells spells apart]
  dsimp only [bind, Except.bind]
  rw [read_of_spells spells stops, Position.after_append]

/-- Behind the last gap there is the end of the input. -/
theorem next_of_lastGap {gap : List Char} (isGap : Gap true gap) (position : Position) :
    next ⟨position, gap⟩ =
      .ok (.endAt (position.after gap).spanHere, ⟨position.after gap, []⟩) := by
  have ended := next_of_gap isGap (fun _ => rfl) position
  rw [List.append_nil] at ended
  rw [ended]
  rfl

/-- One step of the lexer takes a gap and a lexeme off the text, or the last
gap. -/
theorem next_spells {cursor after : Cursor} {token : Token}
    (stepped : cursor.next = .ok (token, after)) :
    token.kind = .endOfInput ∧ token.text = "" ∧ Gap true cursor.rest ∨
    ∃ gap, cursor.rest = gap ++ token.text.toList ++ after.rest ∧ Gap false gap ∧
      Spells token.kind token.text.toList ∧ Stops token.kind after.rest ∧
      (token.kind = .leftParen → after.rest.head? ≠ some ';') := by
  obtain ⟨⟨start, text⟩, skipped, continued⟩ := bind_eq_ok.mp stepped
  obtain ⟨⟨kind, characters, rest⟩, read, taken⟩ := bind_eq_ok.mp continued
  cases taken
  have noComment := skipTrivia_stops skipped
  obtain ⟨gap, shape, -, isGap⟩ := skipTrivia_gap skipped
  rcases read_eq_ok.mp read with ⟨rfl, same⟩ | ⟨spells, stops, rfl⟩
  · cases same
    rw [List.append_nil] at shape
    rw [shape]
    exact .inl ⟨rfl, rfl, isGap⟩
  · have nonempty : (characters ++ rest).isEmpty = false := by
      rcases spells.opens with ⟨-, rfl⟩ | ⟨c, others, rfl, -⟩ <;> rfl
    rw [nonempty] at isGap
    have apart : kind = .leftParen → rest.head? ≠ some ';' := by
      rintro rfl follows
      obtain ⟨behind, rfl⟩ := List.head?_eq_some_iff.mp follows
      cases spells
      exact noComment ⟨behind, rfl⟩
    rw [String.toList_ofList]
    exact .inr ⟨gap, shape.trans (List.append_assoc _ _ _).symm, isGap, spells, stops, apart⟩

/-- Tokens are the lexemes that a text is laid out with, up to the end of the
input. -/
theorem tokens_laidOut {cursor : Cursor} {found : List Token}
    (lexed : cursor.tokens = .ok found) :
    ∃ lexemes last, found = lexemes ++ [last] ∧ last.kind = .endOfInput ∧ last.text = "" ∧
      (∀ token ∈ lexemes, Spells token.kind token.text.toList) ∧
      LaidOut (lexemes.map (·.kind)) cursor.rest := by
  induction cursor using induct_steps generalizing found with
  | fails failed =>
      rw [tokens_of_error failed] at lexed
      cases lexed
  | @ends cursor token after stepped ended =>
      rw [tokens_of_end stepped ended] at lexed
      cases lexed
      rcases next_spells stepped with ⟨isEnd, empty, isGap⟩ | ⟨_, _, _, spells, _⟩
      · exact ⟨[], token, rfl, isEnd, empty, nofun, .last isGap⟩
      · exact absurd (beq_iff_eq.mp ended) spells.notEnd
  | @step cursor token after stepped continues ih =>
      rw [tokens_of_next stepped continues] at lexed
      cases others : after.tokens with
      | error error =>
          rw [others] at lexed
          cases lexed
      | ok rest =>
          rw [others] at lexed
          cases lexed
          obtain ⟨lexemes, last, rfl, isEnd, empty, spell, laidOut⟩ := ih others
          rcases next_spells stepped with ⟨isEnd, _⟩ | ⟨gap, shape, isGap, spells, stops, apart⟩
          · exact absurd isEnd (beq_eq_false_iff_ne.mp continues)
          · refine ⟨token :: lexemes, last, rfl, isEnd, empty,
              List.forall_mem_cons.mpr ⟨spells, spell⟩, ?_⟩
            rw [shape]
            exact .next isGap spells stops apart laidOut

/-- A text is lexed to tokens of the kinds it is laid out for. -/
theorem tokens_of_laidOut {kinds : List TokenKind} {text : List Char} (laidOut : LaidOut kinds text)
    (position : Position) :
    ∃ found, tokens ⟨position, text⟩ = .ok found ∧
      found.map (·.kind) = kinds ++ [.endOfInput] := by
  induction laidOut generalizing position with
  | last isGap => exact ⟨_, tokens_of_end (next_of_lastGap isGap position) rfl, rfl⟩
  | @next kind _ _ _ _ isGap spells stops apart _ ih =>
      have stepped := next_of_spells isGap spells stops apart position
      have continues : (kind == .endOfInput) = false := beq_eq_false_iff_ne.mpr spells.notEnd
      obtain ⟨found, lexed, read⟩ := ih (position.after _)
      rw [tokens_of_next stepped continues, lexed]
      refine ⟨_, rfl, ?_⟩
      rw [List.map_cons, read, List.cons_append]

end Cursor

/-- A source is lexed to tokens of some kinds exactly if it is laid out for
them. -/
theorem tokenise_iff_laidOut {source : String} {kinds : List TokenKind} :
    (∃ tokens, tokenise source = .ok tokens ∧
      tokens.map (·.kind) = kinds ++ [.endOfInput]) ↔ LaidOut kinds source.toList := by
  constructor
  · rintro ⟨tokens, lexed, read⟩
    obtain ⟨lexemes, last, rfl, -, -, -, laidOut⟩ := Cursor.tokens_laidOut lexed
    rw [List.map_append] at read
    rw [← List.append_inj_left' read rfl]
    exact laidOut
  · intro laidOut
    exact Cursor.tokens_of_laidOut laidOut .first

end WatMachine
