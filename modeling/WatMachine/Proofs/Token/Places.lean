import Mathlib.Data.List.DropRight
import WatMachine.Proofs.Token.Layouts

/-!
# Where tokens and errors stand

Every span that a lexer reports is the place of some characters of its source.
For a token these are its text.  For an error they are what is at fault: the
language of faults is stated here apart from the functions that report them,
as the part of a text at which no lexeme can be read.  What one step reports is
proved first, and then that all steps are taken behind tokens and gaps.
-/

namespace WatMachine

open Source

namespace Source

/-- Whether a span is where some characters stand behind others.  Its offsets
count the bytes before them and with them, its line counts the newlines before
them, and its column the characters since the last of these. -/
structure Span.Covers (span : Span) (front covered : List Char) : Prop where
  start_eq : span.start = (String.ofList front).utf8ByteSize
  stop_eq : span.stop = (String.ofList (front ++ covered)).utf8ByteSize
  line_eq : span.line = 1 + front.count '\n'
  column_eq : span.column = 1 + (front.rtakeWhile (· ≠ '\n')).length

/-- Whether a span is a stretch of a source, from one boundary between
characters to another. -/
structure Span.Within (span : Span) (source : String) : Prop where
  start_le_stop : span.start ≤ span.stop
  stop_le : span.stop ≤ source.utf8ByteSize
  start_isValid : String.Pos.Raw.IsValid source ⟨span.start⟩
  stop_isValid : String.Pos.Raw.IsValid source ⟨span.stop⟩

theorem Position.column_after (characters : List Char) :
    (first.after characters).column = 1 + (characters.rtakeWhile (· ≠ '\n')).length := by
  induction characters using List.reverseRecOn with
  | nil => rfl
  | append_singleton characters c ih =>
      rw [after_append, after_cons, after_nil]
      unfold advance
      by_cases newline : c = '\n'
      · rw [if_pos newline, List.rtakeWhile_concat_neg _ _ _ (by simp [newline])]
        rfl
      · rw [if_neg newline, List.rtakeWhile_concat_pos _ _ _ (by simp [newline]), ih,
          List.length_append]
        rfl

/-- Positions that are counted from the start of a source give the span of what
stands between them. -/
theorem Position.spanTo_covers (front covered : List Char) :
    ((first.after front).spanTo (first.after (front ++ covered))).Covers front covered := by
  refine ⟨?_, ?_, first.line_after front, column_after front⟩
  · exact (first.offset_after front).trans (Nat.zero_add _)
  · exact (first.offset_after (front ++ covered)).trans (Nat.zero_add _)

theorem isValid_of_split {source : String} {front back : List Char}
    (split : source.toList = front ++ back) :
    String.Pos.Raw.IsValid source ⟨(String.ofList front).utf8ByteSize⟩ := by
  rw [String.Pos.Raw.isValid_iff_exists_append]
  refine ⟨String.ofList front, String.ofList back, ?_, rfl⟩
  rw [← String.ofList_append, ← split, String.ofList_toList]

theorem Span.Covers.within {source : String} {span : Span} {front covered back : List Char}
    (covers : span.Covers front covered) (split : source.toList = front ++ covered ++ back) :
    span.Within source := by
  have whole : source = String.ofList front ++ String.ofList covered ++ String.ofList back := by
    rw [← String.ofList_append, ← String.ofList_append, ← split, String.ofList_toList]
  refine ⟨?_, ?_, ?_, ?_⟩
  · simp [covers.start_eq, covers.stop_eq]
  · simp [covers.stop_eq, whole]
  · rw [covers.start_eq]
    exact isValid_of_split (split.trans (List.append_assoc _ _ _))
  · rw [covers.stop_eq]
    exact isValid_of_split split

end Source

namespace Lexeme

/-- What is at fault in a text that starts with no lexeme: the characters that
lead to it, its own characters, and those behind it. -/
inductive Blames : LexFault → List Char → List Char → List Char → Prop where
  | unexpectedCharacter {c : Char} {back : List Char}
      (startsNone : ∀ kind characters, ¬Spells kind (c :: characters)) :
      Blames (.unexpectedCharacter c) [] [c] back
  | unterminatedString {value : List Char} (plain : '\\' ∉ value) :
      Blames .unterminatedString [] ('"' :: escaped value) []
  | malformedString {value back : List Char} (plain : '\\' ∉ value)
      (noEscape : back.head? ≠ some '"') :
      Blames .malformedString ('"' :: (escaped value ++ ['\\'])) [] back
  | unterminatedComment {inner : List Char}
      (unclosed : ∀ text behind, CommentText text → inner ≠ text ++ ';' :: ')' :: behind) :
      Blames .unterminatedComment [] ('(' :: ';' :: inner) []
  | invalidInteger {text back : List Char} (word : ∀ c ∈ text, isWordChar c = true)
      (stops : ∀ c ∈ back.head?, isWordChar c = false) :
      Blames (.invalidInteger (String.ofList text)) [] text back
  | emptyIdentifier {back : List Char} (noName : ∀ c ∈ back.head?, isWordChar c = false) :
      Blames .emptyIdentifier [] ['$'] back

/-- Whether an error is about what is at fault in a text, and where this stands
if the text starts at a given position. -/
def FailsWith (start : Position) (text : List Char) (error : LexError) : Prop :=
  ∃ lead covered back, text = lead ++ covered ++ back ∧ Blames error.fault lead covered back ∧
    error.span = (start.after lead).spanTo (start.after (lead ++ covered))

theorem bind_eq_error {α β : Type} {first : Except LexError α} {next : α → Except LexError β}
    {error : LexError} (failed : first >>= next = .error error) :
    first = .error error ∨ ∃ value, first = .ok value ∧ next value = .error error := by
  cases first with
  | error other =>
      cases failed
      exact .inl rfl
  | ok value => exact .inr ⟨value, rfl, failed⟩

section Reading

variable {start : Position} {text : List Char} {error : LexError}

/-- A string fails at the end of the text, or behind a backslash. -/
theorem stringBody_fails {position : Position}
    (failed : stringBody start position text = .error error) :
    ∃ value, '\\' ∉ value ∧
      (text = escaped value ∧
        error = ⟨.unterminatedString, start.spanTo (position.after text)⟩ ∨
      ∃ back, text = escaped value ++ '\\' :: back ∧ back.head? ≠ some '"' ∧
        error = ⟨.malformedString, (position.after (escaped value ++ ['\\'])).spanHere⟩) := by
  fun_induction stringBody start position text with
  | case1 position =>
      cases failed
      exact ⟨[], List.not_mem_nil, .inl ⟨rfl, rfl⟩⟩
  | case2 position rest => cases failed
  | case3 position rest ih =>
      rcases bind_eq_error failed with within | ⟨_, _, ended⟩
      · obtain ⟨value, plain, ending⟩ := ih within
        refine ⟨'"' :: value, by simpa using plain, ?_⟩
        rcases ending with ⟨rfl, rfl⟩ | ⟨back, rfl, noEscape, rfl⟩
        · exact .inl ⟨rfl, rfl⟩
        · exact .inr ⟨back, rfl, noEscape, rfl⟩
      · cases ended
  | case4 position rest _ noEscape =>
      cases failed
      refine ⟨[], List.not_mem_nil, .inr ⟨rest, rfl, ?_, rfl⟩⟩
      intro quote
      obtain ⟨behind, rfl⟩ := List.head?_eq_some_iff.mp quote
      exact noEscape behind rfl rfl
  | case5 position c rest notQuote _ notBackslash ih =>
      rcases bind_eq_error failed with within | ⟨_, _, ended⟩
      · obtain ⟨value, plain, ending⟩ := ih within
        refine ⟨c :: value, by simp [plain, Ne.symm notBackslash], ?_⟩
        rw [escaped_cons notQuote]
        rcases ending with ⟨rfl, rfl⟩ | ⟨back, rfl, noEscape, rfl⟩
        · exact .inl ⟨rfl, rfl⟩
        · exact .inr ⟨back, rfl, noEscape, rfl⟩
      · cases ended

theorem ofString_fails (failed : ofString start text = .error error) :
    FailsWith start ('"' :: text) error := by
  rcases bind_eq_error failed with within | ⟨_, _, ended⟩
  · obtain ⟨value, plain, ⟨rfl, rfl⟩ | ⟨back, rfl, noEscape, rfl⟩⟩ := stringBody_fails within
    · exact ⟨[], _, [], by simp, .unterminatedString plain, rfl⟩
    · refine ⟨_, [], back, by simp, .malformedString plain noEscape, ?_⟩
      rw [List.append_nil]
      rfl
  · cases ended

theorem splitSign_word {sign unsigned : List Char} (split : splitSign text = (sign, unsigned)) :
    ∀ c ∈ sign, isWordChar c = true := by
  unfold splitSign at split
  split at split
  · cases split
    exact List.forall_mem_singleton.mpr (by decide)
  · cases split
    exact List.forall_mem_singleton.mpr (by decide)
  · cases split
    exact nofun

theorem ofInteger_fails (failed : ofInteger start text = .error error) :
    FailsWith start text error := by
  rcases split : splitSign text with ⟨sign, unsigned⟩
  have shape := splitSign_shape split
  simp only [ofInteger, split] at failed
  split at failed
  · cases failed
  · cases failed
    refine ⟨[], _, (unsigned.dropWhile isDigitOrSeparator).dropWhile isWordChar, ?_,
      .invalidInteger ?_ (not_accepted_behind_run _), rfl⟩
    · rw [List.nil_append, List.append_assoc, List.append_assoc,
        List.takeWhile_append_dropWhile, List.takeWhile_append_dropWhile, shape]
    · simp only [List.mem_append]
      rintro c ((isSign | isDigit) | isWord)
      · exact splitSign_word split c isSign
      · exact isWordChar_of_isDigitOrSeparator (List.mem_takeWhile_imp isDigit)
      · exact List.mem_takeWhile_imp isWord

theorem ofIdentifier_fails (failed : ofIdentifier start text = .error error) :
    FailsWith start ('$' :: text) error := by
  unfold ofIdentifier at failed
  split at failed
  next noName =>
      cases failed
      refine ⟨[], ['$'], text, rfl, .emptyIdentifier ?_, rfl⟩
      intro c first
      obtain ⟨others, rfl⟩ := List.head?_eq_some_iff.mp (Option.mem_def.mp first)
      cases isWord : isWordChar c with
      | false => rfl
      | true =>
          rw [List.takeWhile_cons_of_pos isWord] at noName
          cases noName
  · cases failed

/-- Where no lexeme is read, the text is at fault as the error says. -/
theorem read_fails (failed : Lexeme.read start text = .error error) :
    FailsWith start text error := by
  cases text with
  | nil => cases failed
  | cons c rest =>
      rw [Lexeme.read] at failed
      split at failed
      next quote =>
          subst quote
          exact ofString_fails failed
      split at failed
      next => cases failed
      split at failed
      next => cases failed
      split at failed
      next => cases failed
      split at failed
      next => exact ofInteger_fails failed
      split at failed
      next dollar =>
          subst dollar
          exact ofIdentifier_fails failed
      next noString noLeft noRight noLower noInteger noDollar =>
          cases failed
          refine ⟨[], [c], rest, rfl, .unexpectedCharacter ?_, rfl⟩
          intro kind characters spells
          -- Every lexeme is read, so this one would be.
          have stops : Stops kind [] := by
            intro _ _ first
            cases first
          have read : Lexeme.read start (c :: characters ++ []) = .ok ⟨kind, c :: characters, []⟩ :=
            read_of_spells spells stops
          rw [List.append_nil, Lexeme.read, if_neg noString, if_neg noLeft, if_neg noRight,
            if_neg noLower, if_neg noInteger, if_neg noDollar] at read
          cases read

end Reading

section Comments

variable {position : Position} {text : List Char} {error : LexError}

/-- Skipping fails at the end of the text, in the comment that the walk starts
in or in one behind it. -/
theorem skipTrivia_fails {trivia : Trivia}
    (failed : skipTrivia trivia position text = .error error) :
    (∃ start depth, trivia = .blockComment start depth ∧
      error = ⟨.unterminatedComment, start.spanTo (position.after text)⟩) ∨
    ∃ skipped inner, text = skipped ++ '(' :: ';' :: inner ∧ Passed false trivia skipped ∧
      error = ⟨.unterminatedComment,
        (position.after skipped).spanTo (position.after text)⟩ := by
  fun_induction skipTrivia trivia position text with
  | case1 position => cases failed
  | case2 position rest ih =>
      right
      rcases ih failed with ⟨_, _, ⟨⟩, rfl⟩ | ⟨skipped, inner, rfl, passed, rfl⟩
      · exact ⟨[], rest, rfl, .blank .nil, rfl⟩
      · exact ⟨'(' :: ';' :: skipped, inner, rfl, passed.openBlock, rfl⟩
  | case3 position rest ih =>
      right
      rcases ih failed with ⟨_, _, ⟨⟩, _⟩ | ⟨skipped, inner, rfl, passed, rfl⟩
      exact ⟨';' :: ';' :: skipped, inner, rfl, passed.openLine, rfl⟩
  | case4 position c rest _ _ blank ih =>
      right
      rcases ih failed with ⟨_, _, ⟨⟩, _⟩ | ⟨skipped, inner, rfl, passed, rfl⟩
      cases passed with
      | blank gap => exact ⟨c :: skipped, inner, rfl, .blank (.blank blank gap), rfl⟩
  | case5 position c rest _ _ _ => cases failed
  | case6 position => cases failed
  | case7 position c rest ih =>
      right
      rcases ih failed with ⟨start, depth, isBlock, _⟩ | ⟨skipped, inner, rfl, passed, rfl⟩
      · split at isBlock <;> cases isBlock
      · exact ⟨c :: skipped, inner, rfl, passed.lineCharacter, rfl⟩
  | case8 start depth position =>
      cases failed
      exact .inl ⟨start, depth, rfl, rfl⟩
  | case9 start depth position rest ih =>
      rcases ih failed with ⟨_, _, ⟨⟩, rfl⟩ | ⟨skipped, inner, rfl, passed, rfl⟩
      · exact .inl ⟨start, depth, rfl, rfl⟩
      · exact .inr ⟨'(' :: ';' :: skipped, inner, rfl, passed.openInner, rfl⟩
  | case10 start position rest ih =>
      right
      rcases ih failed with ⟨_, _, ⟨⟩, _⟩ | ⟨skipped, inner, rfl, passed, rfl⟩
      cases passed with
      | blank gap => exact ⟨';' :: ')' :: skipped, inner, rfl, .outermost .nil gap, rfl⟩
  | case11 start depth position rest ih =>
      rcases ih failed with ⟨_, _, ⟨⟩, rfl⟩ | ⟨skipped, inner, rfl, passed, rfl⟩
      · exact .inl ⟨start, depth + 1, rfl, rfl⟩
      · exact .inr ⟨';' :: ')' :: skipped, inner, rfl, .nested .nil passed, rfl⟩
  | case12 start depth position c rest noOpening noOuterClosing noInnerClosing ih =>
      rcases ih failed with ⟨_, _, ⟨⟩, rfl⟩ | ⟨skipped, inner, rfl, passed, rfl⟩
      · exact .inl ⟨start, depth, rfl, rfl⟩
      · exact .inr ⟨c :: skipped, inner, rfl,
          passed.commentCharacter noOpening noOuterClosing noInnerClosing, rfl⟩

/-- Between tokens, skipping fails in a comment that is not closed, behind a
gap. -/
theorem skipTrivia_unclosed (failed : skipTrivia .blank position text = .error error) :
    ∃ gap comment, text = gap ++ comment ∧ Gap comment.isEmpty gap ∧
      FailsWith (position.after gap) comment error := by
  rcases skipTrivia_fails failed with ⟨_, _, ⟨⟩, _⟩ | ⟨gap, inner, rfl, passed, rfl⟩
  cases passed with
  | blank isGap =>
      refine ⟨gap, _, rfl, isGap, [], _, [], (List.append_nil _).symm, .unterminatedComment ?_, ?_⟩
      · rintro text behind within rfl
        -- A comment that is closed is passed over, and what fails begins behind it.
        rw [skipTrivia_of_gap isGap nofun, skipTrivia, skipTrivia_comment within, if_pos rfl]
          at failed
        rcases skipTrivia_fails failed with ⟨_, _, ⟨⟩, _⟩ | ⟨skipped, _, _, _, same⟩
        have starts : (position.after gap).offset = ((position.after gap).after
            ('(' :: ';' :: (text ++ ';' :: ')' :: skipped))).offset := by
          simpa [Position.spanTo] using congrArg (·.span.start) same
        rw [Position.offset_after _ ('(' :: _), String.ofList_cons, String.utf8ByteSize_append,
          String.utf8ByteSize_singleton] at starts
        have width : '('.utf8Size = 1 := rfl
        omega
      · simp

end Comments

end Lexeme

namespace Cursor

/-- A step that fails does so behind a gap, at what is at fault there. -/
theorem next_fails {cursor : Cursor} {error : LexError} (failed : cursor.next = .error error) :
    ∃ gap text, cursor.rest = gap ++ text ∧ Gap text.isEmpty gap ∧
      Lexeme.FailsWith (cursor.position.after gap) text error := by
  rcases Lexeme.bind_eq_error failed with unclosed | ⟨⟨start, text⟩, skipped, continued⟩
  · exact Lexeme.skipTrivia_unclosed unclosed
  · obtain ⟨gap, shape, rfl, isGap⟩ := skipTrivia_gap skipped
    rcases Lexeme.bind_eq_error continued with failed | ⟨_, _, ended⟩
    · exact ⟨gap, text, shape, isGap, Lexeme.read_fails failed⟩
    · cases ended

/-- Whether lexing comes from one place to another, and the tiles between
them. -/
inductive Reaches : Cursor → List Tile → Cursor → Prop where
  | refl (cursor : Cursor) : Reaches cursor [] cursor
  | step {cursor after final : Cursor} {tile : Tile} {tiles : List Tile}
      (isGap : Gap false tile.gap) (shape : cursor.rest = tile.text ++ after.rest)
      (place : after.position = cursor.position.after tile.text)
      (others : Reaches after tiles final) : Reaches cursor (tile :: tiles) final

namespace Reaches

variable {cursor final : Cursor} {tiles : List Tile}

theorem rest_eq (reaches : Reaches cursor tiles final) :
    cursor.rest = tiles.flatMap Tile.text ++ final.rest := by
  induction reaches with
  | refl cursor => rfl
  | step _ shape _ _ ih => rw [shape, ih, List.flatMap_cons, List.append_assoc]

theorem position_eq (reaches : Reaches cursor tiles final) :
    final.position = cursor.position.after (tiles.flatMap Tile.text) := by
  induction reaches with
  | refl cursor => rfl
  | step _ _ place _ ih => rw [ih, place, List.flatMap_cons, Position.after_append]

theorem gaps (reaches : Reaches cursor tiles final) : ∀ tile ∈ tiles, Gap false tile.gap := by
  induction reaches with
  | refl cursor => exact nofun
  | step isGap _ _ _ ih => exact List.forall_mem_cons.mpr ⟨isGap, ih⟩

end Reaches

end Cursor

namespace Lexer

theorem take_finished (count : Nat) (cursor : Cursor) :
    take count ⟨cursor, true⟩ = List.replicate count none := by
  induction count with
  | zero => rfl
  | succ count ih => exact congrArg (none :: ·) ih

theorem take_of_error {count : Nat} {cursor : Cursor} {error : LexError}
    (failed : cursor.next = .error error) :
    take (count + 1) ⟨cursor, false⟩ = some (.error error) :: take count ⟨cursor, true⟩ := by
  simp [take, next, failed]

theorem take_of_next {count : Nat} {cursor after : Cursor} {token : Token}
    (stepped : cursor.next = .ok (token, after)) :
    take (count + 1) ⟨cursor, false⟩ = some (.ok token) :: take count ⟨after, token.isEnd⟩ := by
  simp [take, next, stepped]

/-- Every item is given by a step from a place behind the tokens before it. -/
theorem take_reaches {count : Nat} {cursor : Cursor} {item : Except LexError Token}
    {front back : List (Option (Except LexError Token))}
    (taken : take count ⟨cursor, false⟩ = front ++ some item :: back) :
    ∃ tiles final, Cursor.Reaches cursor tiles final ∧
      front = tiles.map (fun tile => some (.ok tile.token)) ∧ final.next.map Prod.fst = item := by
  -- Behind the last item there is none.
  have nothing {count : Nat} {cursor : Cursor} {front : List (Option (Except LexError Token))}
      (behind : take count ⟨cursor, true⟩ = front ++ some item :: back) : False := by
    have member : some item ∈ List.replicate count none := by
      rw [← take_finished count cursor, behind]
      simp
    cases List.eq_of_mem_replicate member
  induction count generalizing cursor front with
  | zero => simp [take] at taken
  | succ count ih =>
      cases stepped : cursor.next with
      | error error =>
          rw [take_of_error stepped] at taken
          cases front with
          | nil =>
              cases (List.cons.inj taken).1
              exact ⟨[], cursor, .refl cursor, rfl, by rw [stepped]; rfl⟩
          | cons first front => exact (nothing (List.cons.inj taken).2).elim
      | ok step =>
          obtain ⟨token, after⟩ := step
          rw [take_of_next stepped] at taken
          cases front with
          | nil =>
              cases (List.cons.inj taken).1
              exact ⟨[], cursor, .refl cursor, rfl, by rw [stepped]; rfl⟩
          | cons first front =>
              obtain ⟨rfl, others⟩ := List.cons.inj taken
              rcases Cursor.next_takes stepped with
                ⟨_, rfl⟩ | ⟨gap, isGap, notEnd, _, shape, place, _⟩
              · exact (nothing others).elim
              · have continues : token.isEnd = false := by simpa [Token.isEnd] using notEnd
                rw [continues] at others
                obtain ⟨tiles, final, reaches, rfl, given⟩ := ih others
                exact ⟨⟨gap, token⟩ :: tiles, final, .step isGap shape place reaches, rfl, given⟩

/-- Whether all tokens that were collected are among some items, or the error
is. -/
def Among (items : List (Option (Except LexError Token))) : Except LexError (List Token) → Prop
  | .ok tokens => ∀ token ∈ tokens, some (.ok token) ∈ items
  | .error error => some (.error error) ∈ items

theorem collect_among (count : Nat) (lexer : Lexer) :
    Among (lexer.take count) (lexer.collect count) := by
  induction count generalizing lexer with
  | zero => exact List.forall_mem_nil _
  | succ count ih =>
      rw [collect, take]
      rcases lexer.next with ⟨_ | error | token, after⟩
      · exact List.forall_mem_nil _
      · exact List.mem_cons_self
      · have behind := ih after
        dsimp only
        cases collected : collect count after with
        | error error =>
            rw [collected] at behind
            exact List.mem_cons_of_mem _ behind
        | ok others =>
            rw [collected] at behind
            refine List.forall_mem_cons.mpr ⟨List.mem_cons_self, ?_⟩
            intro other among
            exact List.mem_cons_of_mem _ (behind other among)

/-- The span of an item. -/
def spanOf : Except LexError Token → Span
  | .ok token => token.span
  | .error error => error.span

/-- What an item is about, with what leads to it and what is behind it: a token
is about its text, and an error about what is at fault. -/
def Concerns : Except LexError Token → List Char → List Char → List Char → Prop
  | .ok token, lead, covered, _ => lead = [] ∧ covered = token.text.toList
  | .error error, lead, covered, back => Lexeme.Blames error.fault lead covered back

/-- What is known of an item that is reported for a source, behind some tiles
and a gap: where the characters are that it is about, and that these are the
characters at its span. -/
structure Located (source : String) (item : Except LexError Token) (tiles : List Tile)
    (gap lead covered back : List Char) : Prop where
  source_eq : source.toList = tiles.flatMap Tile.text ++ gap ++ lead ++ covered ++ back
  gaps : ∀ tile ∈ tiles, Gap false tile.gap
  isGap : Gap (lead ++ covered ++ back).isEmpty gap
  concerns : Concerns item lead covered back
  covers : (spanOf item).Covers (tiles.flatMap Tile.text ++ gap ++ lead) covered
  within : (spanOf item).Within source

/-- A step from a place behind tiles reports what stands there. -/
theorem located_of_reaches {source : String} {tiles : List Tile} {final : Cursor}
    {item : Except LexError Token}
    (reaches : Cursor.Reaches (.ofCharacters source.toList) tiles final)
    (given : final.next.map Prod.fst = item) :
    ∃ gap lead covered back, Located source item tiles gap lead covered back := by
  have whole : source.toList = tiles.flatMap Tile.text ++ final.rest := reaches.rest_eq
  have place : final.position = Position.first.after (tiles.flatMap Tile.text) :=
    reaches.position_eq
  suffices found : ∃ gap lead covered back, final.rest = gap ++ (lead ++ covered ++ back) ∧
      Gap (lead ++ covered ++ back).isEmpty gap ∧ Concerns item lead covered back ∧
      spanOf item = (final.position.after (gap ++ lead)).spanTo
        (final.position.after (gap ++ lead ++ covered)) by
    obtain ⟨gap, lead, covered, back, shape, isGap, concerns, span⟩ := found
    have split : source.toList = tiles.flatMap Tile.text ++ gap ++ lead ++ covered ++ back := by
      simp [whole, shape]
    have covers := Position.spanTo_covers (tiles.flatMap Tile.text ++ gap ++ lead) covered
    have same : spanOf item = (Position.first.after (tiles.flatMap Tile.text ++ gap ++ lead)).spanTo
        (Position.first.after (tiles.flatMap Tile.text ++ gap ++ lead ++ covered)) := by
      simp [span, place]
    rw [← same] at covers
    exact ⟨gap, lead, covered, back, split, reaches.gaps, isGap, concerns, covers,
      covers.within split⟩
  subst given
  cases stepped : final.next with
  | error error =>
      obtain ⟨gap, text, shape, isGap, lead, covered, back, rfl, blames, span⟩ :=
        Cursor.next_fails stepped
      refine ⟨gap, lead, covered, back, shape, isGap, blames, ?_⟩
      rw [List.append_assoc, Position.after_append, Position.after_append]
      exact span
  | ok step =>
      obtain ⟨token, after⟩ := step
      rcases Cursor.next_takes stepped with
        ⟨isGap, rfl⟩ | ⟨gap, isGap, _, nonempty, shape, behind, span⟩
      · refine ⟨final.rest, [], [], [], (List.append_nil _).symm, isGap, ⟨rfl, rfl⟩, ?_⟩
        rw [List.append_nil, List.append_nil]
        rfl
      · have more : (token.text.toList ++ after.rest).isEmpty = false := by
          simp [nonempty]
        refine ⟨gap, [], token.text.toList, after.rest, ?_, ?_, ⟨rfl, rfl⟩, ?_⟩
        · rw [shape, Tile.text, List.append_assoc]
          rfl
        · rw [List.nil_append, more]
          exact isGap
        · rw [List.append_nil]
          rw [behind] at span
          exact span

/-- Every item that is taken is about what stands behind the tokens before it. -/
theorem located_of_take {source : String} {count : Nat}
    {front others : List (Option (Except LexError Token))} {item : Except LexError Token}
    (taken : (ofSource source).take count = front ++ some item :: others) :
    ∃ tiles gap lead covered back, front = tiles.map (fun tile => some (.ok tile.token)) ∧
      Located source item tiles gap lead covered back := by
  obtain ⟨tiles, final, reaches, rfl, isItem⟩ := take_reaches taken
  obtain ⟨gap, lead, covered, back, located⟩ := located_of_reaches reaches isItem
  exact ⟨tiles, gap, lead, covered, back, rfl, located⟩

theorem located_of_mem {source : String} {count : Nat} {item : Except LexError Token}
    (among : some item ∈ (ofSource source).take count) :
    ∃ tiles gap lead covered back, Located source item tiles gap lead covered back := by
  obtain ⟨front, others, taken⟩ := List.append_of_mem among
  obtain ⟨tiles, gap, lead, covered, back, -, located⟩ := located_of_take taken
  exact ⟨tiles, gap, lead, covered, back, located⟩

/-- The spans that a lexer reports are exact.  Every item that is given for a
source stands behind the tokens given before it, with gaps between them.  Its
span is a stretch of the source with the line and the column of its start, and
covers what the item is about.  All this is so for the tokens of a source that
is lexed to its end, and for the error otherwise. -/
theorem spans_exact (source : String) :
    (∀ count front item others,
      (ofSource source).take count = front ++ some item :: others →
        ∃ tiles gap lead covered back, front = tiles.map (fun tile => some (.ok tile.token)) ∧
          Located source item tiles gap lead covered back) ∧
    (∀ tokens, tokenise source = .ok tokens → ∀ token ∈ tokens,
      ∃ tiles gap lead covered back, Located source (.ok token) tiles gap lead covered back) ∧
    ∀ error, tokenise source = .error error →
      ∃ tiles gap lead covered back,
        Located source (.error error) tiles gap lead covered back := by
  have among : Among ((ofSource source).take (source.toList.length + 1)) (tokenise source) :=
    collect_among _ _
  refine ⟨fun count front item others => located_of_take, ?_, ?_⟩
  · intro tokens lexed token inside
    rw [lexed] at among
    exact located_of_mem (among token inside)
  · intro error stopped
    rw [stopped] at among
    exact located_of_mem among

/-- A string with a newline and letters of two bytes, and behind it a comment
that is not closed although one inside it is. -/
def unclosed : String :=
  "\"é\nß\" (;é(;;)\n"

theorem spans_exact_unclosed :
    let string : Token := ⟨.string "é\nß", "\"é\nß\"", ⟨0, 7, 1, 1⟩⟩
    let before : List (Option (Except LexError Token)) := [some (.ok string)]
    let error : LexError := ⟨.unterminatedComment, ⟨8, 17, 2, 4⟩⟩
    (ofSource unclosed).take 3 = before ++ some (.error error) :: [none] ∧
      tokenise unclosed = .error error ∧ tokenise "\"é\nß\"" = .ok [string, .endAt ⟨7, 7, 2, 3⟩] ∧
      (∃ tiles gap lead covered back, before = tiles.map (fun tile => some (.ok tile.token)) ∧
        Located unclosed (.error error) tiles gap lead covered back) ∧
      (∃ tiles gap lead covered back,
        Located unclosed (.error error) tiles gap lead covered back) ∧
      ∃ tiles gap lead covered back,
        Located "\"é\nß\"" (.ok string) tiles gap lead covered back := by
  intro string before error
  have taken : (ofSource unclosed).take 3 = before ++ some (.error error) :: [none] := by
    decide +kernel
  have stopped : tokenise unclosed = .error error := by decide +kernel
  have lexed : tokenise "\"é\nß\"" = .ok [string, .endAt ⟨7, 7, 2, 3⟩] := by decide +kernel
  refine ⟨taken, stopped, lexed, (spans_exact unclosed).1 _ _ _ _ taken,
    (spans_exact unclosed).2.2 _ stopped, ?_⟩
  exact (spans_exact _).2.1 _ lexed string List.mem_cons_self

end Lexer

end WatMachine
