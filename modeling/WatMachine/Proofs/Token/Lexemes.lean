import Mathlib.Data.List.TakeWhile
import WatMachine.Proofs.Token.Tiling

/-!
# The language of lexemes

What lexemes are written with, stated apart from the functions that read them.

    string     ::= " (character | \")* "      the characters being neither " nor \
    integer    ::= (+ | -)? (digit | _)*      with a digit, and within 64 bits
    identifier ::= $ word-character+
    word       ::= lower-case-letter word-character*

A lexeme of the last three kinds goes on as long as word characters follow.
Where a text stands in its source has no part in this, so the lexeme that it
starts with is the same everywhere.

The tokens of a text are its first one and those behind it.  The count of
steps that lexing is given is more than it can take, and does not show.
-/

namespace WatMachine

open Source

namespace TokenKind

/-- Whether a lexeme of this kind goes on as long as word characters follow. -/
def runsOn : TokenKind → Bool
  | integer _ | identifier _ | keyword _ | reserved _ => true
  | leftParen | rightParen | string _ | endOfInput => false

end TokenKind

namespace Lexeme

/-- The characters between the quotes of the string that stands for a text. -/
def escaped (value : List Char) : List Char :=
  value.flatMap fun c => if c = '"' then ['\\', '"'] else [c]

/-- A lower-case letter and word characters behind it. -/
structure IsWord (characters : List Char) : Prop where
  lower : ∃ c ∈ characters.head?, c.isLower = true
  word : ∀ c ∈ characters, isWordChar c = true

/-- Whether some characters are a lexeme of a kind. -/
inductive Spells : TokenKind → List Char → Prop where
  | leftParen : Spells .leftParen ['(']
  | rightParen : Spells .rightParen [')']
  | string {value : List Char} (plain : '\\' ∉ value) :
      Spells (.string (String.ofList value)) ('"' :: (escaped value ++ ['"']))
  | integer {sign run : List Char} {value : Int}
      (signed : sign = ['+'] ∨ sign = ['-'] ∨ sign = [] ∧ ∃ c ∈ run.head?, c.isDigit = true)
      (digits : ∀ c ∈ run, isDigitOrSeparator c = true)
      (number : integerValue? sign run = some value) :
      Spells (.integer value) (sign ++ run)
  | identifier {name : List Char} (nonempty : name ≠ [])
      (word : ∀ c ∈ name, isWordChar c = true) :
      Spells (.identifier (String.ofList name)) ('$' :: name)
  | keyword {characters : List Char} {word : Keyword} (isWord : IsWord characters)
      (found : Keyword.ofSpelling? (String.ofList characters) = some word) :
      Spells (.keyword word) characters
  | reserved {characters : List Char} (isWord : IsWord characters)
      (unknown : Keyword.ofSpelling? (String.ofList characters) = none) :
      Spells (.reserved (String.ofList characters)) characters

/-- Whether a lexeme of a kind ends where the rest of a text begins. -/
def Stops (kind : TokenKind) (rest : List Char) : Prop :=
  kind.runsOn = true → ∀ c ∈ rest.head?, isWordChar c = false

theorem Stops.of_alone {kind : TokenKind} {rest : List Char} (alone : kind.runsOn = false) :
    Stops kind rest := by
  intro runsOn
  rw [alone] at runsOn
  cases runsOn

section Runs

variable {accepts : Char → Bool} {front rest : List Char}

theorem takeWhile_of_stop (stops : ∀ c ∈ rest.head?, accepts c = false) :
    rest.takeWhile accepts = [] := by
  cases rest with
  | nil => rfl
  | cons c rest => exact List.takeWhile_cons_of_neg (by simp [stops c rfl])

/-- A run of characters ends in front of the first one that is not accepted. -/
theorem takeWhile_append_of_stop (all : ∀ c ∈ front, accepts c = true)
    (stops : ∀ c ∈ rest.head?, accepts c = false) :
    (front ++ rest).takeWhile accepts = front := by
  rw [List.takeWhile_append_of_pos all, takeWhile_of_stop stops, List.append_nil]

theorem dropWhile_append_of_stop (all : ∀ c ∈ front, accepts c = true)
    (stops : ∀ c ∈ rest.head?, accepts c = false) :
    (front ++ rest).dropWhile accepts = rest := by
  rw [List.dropWhile_append_of_pos all]
  cases rest with
  | nil => rfl
  | cons c rest => exact List.dropWhile_cons_of_neg (by simp [stops c rfl])

theorem not_accepted_behind_run (text : List Char) :
    ∀ c ∈ (text.dropWhile accepts).head?, accepts c = false := by
  intro c first
  have stopped := List.head?_dropWhile_not accepts text
  rw [Option.mem_def.mp first] at stopped
  exact stopped

end Runs

theorem isWordChar_of_isDigitOrSeparator {c : Char} (digit : isDigitOrSeparator c = true) :
    isWordChar c = true := by
  rcases Bool.or_eq_true_iff.mp digit with digit | separator
  · have letter : c.isAlphanum = (c.isUpper || c.isLower || c.isDigit) := rfl
    simp [isWordChar, letter, digit]
  · rw [beq_iff_eq.mp separator]
    decide

/-- Where a word ends, a run of digits does. -/
theorem run_ends_of_stop {rest : List Char} (stops : ∀ c ∈ rest.head?, isWordChar c = false) :
    ∀ c ∈ rest.head?, isDigitOrSeparator c = false := by
  intro c isFirst
  rw [Bool.eq_false_iff]
  intro digit
  exact Bool.eq_false_iff.mp (stops c isFirst) (isWordChar_of_isDigitOrSeparator digit)

section Strings

variable {start position : Position} {value rest : List Char}

theorem escaped_quote : escaped ('"' :: value) = '\\' :: '"' :: escaped value :=
  rfl

theorem escaped_cons {c : Char} (plain : c ≠ '"') : escaped (c :: value) = c :: escaped value := by
  simp [escaped, plain]

theorem stringBody_spells {text raw : List Char}
    (read : stringBody start position text = .ok (raw, value, rest)) :
    raw = escaped value ++ ['"'] ∧ '\\' ∉ value := by
  fun_induction stringBody start position text generalizing raw value rest with
  | case1 position => cases read
  | case2 position rest =>
      cases read
      exact ⟨rfl, List.not_mem_nil⟩
  | case3 position rest ih =>
      obtain ⟨⟨inner, shorter, _⟩, within, ended⟩ := bind_eq_ok.mp read
      cases ended
      obtain ⟨rfl, plain⟩ := ih within
      refine ⟨rfl, ?_⟩
      simpa using plain
  | case4 position rest => cases read
  | case5 position c rest notQuote _ notBackslash ih =>
      obtain ⟨⟨inner, shorter, _⟩, within, ended⟩ := bind_eq_ok.mp read
      cases ended
      obtain ⟨rfl, plain⟩ := ih within
      refine ⟨?_, ?_⟩
      · rw [escaped_cons notQuote, List.cons_append]
      · simp [plain, Ne.symm notBackslash]

/-- Every text without a backslash can be written between quotes. -/
theorem stringBody_escaped (plain : '\\' ∉ value) :
    stringBody start position (escaped value ++ '"' :: rest) =
      .ok (escaped value ++ ['"'], value, rest) := by
  induction value generalizing position with
  | nil => simp [escaped, stringBody]
  | cons c value ih =>
      obtain ⟨notBackslash, others⟩ := not_or.mp (mt List.mem_cons.mpr plain)
      by_cases isQuote : c = '"'
      · subst isQuote
        rw [escaped_quote, List.cons_append, List.cons_append, stringBody, ih others]
        rfl
      · rw [escaped_cons isQuote, List.cons_append, stringBody, if_neg (Ne.symm notBackslash),
          ih others]
        · rfl
        · exact isQuote
        · rintro _ rfl
          exact absurd rfl notBackslash

end Strings

section Reading

variable {start : Position} {text rest : List Char} {lexeme : Lexeme}

theorem ofString_spells (read : ofString start text = .ok lexeme) :
    Spells lexeme.kind lexeme.characters ∧ Stops lexeme.kind lexeme.rest := by
  obtain ⟨⟨raw, value, rest⟩, within, ended⟩ := bind_eq_ok.mp read
  cases ended
  obtain ⟨rfl, plain⟩ := stringBody_spells within
  exact ⟨.string plain, .of_alone rfl⟩

theorem ofWord_spells {c : Char} (lower : c.isLower = true) :
    Spells (ofWord (c :: text)).kind (ofWord (c :: text)).characters ∧
      Stops (ofWord (c :: text)).kind (ofWord (c :: text)).rest := by
  have isWord : IsWord ((c :: text).takeWhile isWordChar) := by
    refine ⟨⟨c, ?_, lower⟩, fun _ => List.mem_takeWhile_imp⟩
    rw [List.takeWhile_cons_of_pos (isWordChar_of_isLower lower)]
    rfl
  refine ⟨?_, fun _ => not_accepted_behind_run _⟩
  simp only [ofWord]
  cases found : Keyword.ofSpelling? (String.ofList ((c :: text).takeWhile isWordChar)) with
  | some word => exact .keyword isWord found
  | none => exact .reserved isWord found

theorem splitSign_of_digit {c : Char} (digit : c.isDigit = true) :
    splitSign (c :: text) = ([], c :: text) := by
  have notPlus : c ≠ '+' := by
    rintro rfl
    exact absurd digit (by decide)
  have notMinus : c ≠ '-' := by
    rintro rfl
    exact absurd digit (by decide)
  unfold splitSign
  split <;> simp_all

theorem ofInteger_spells {c : Char} (first : c = '+' ∨ c = '-' ∨ c.isDigit = true)
    (read : ofInteger start (c :: text) = .ok lexeme) :
    Spells lexeme.kind lexeme.characters ∧ Stops lexeme.kind lexeme.rest := by
  rcases split : splitSign (c :: text) with ⟨sign, unsigned⟩
  have signed : sign = ['+'] ∨ sign = ['-'] ∨ sign = [] ∧
      ∃ c ∈ (unsigned.takeWhile isDigitOrSeparator).head?, c.isDigit = true := by
    rcases first with rfl | rfl | digit
    · cases split
      exact .inl rfl
    · cases split
      exact .inr (.inl rfl)
    · rw [splitSign_of_digit digit] at split
      cases split
      refine .inr (.inr ⟨rfl, c, ?_, digit⟩)
      rw [List.takeWhile_cons_of_pos (by simp [isDigitOrSeparator, digit])]
      rfl
  simp only [ofInteger, split] at read
  split at read
  next _ value ended number =>
      cases read
      refine ⟨.integer signed (fun _ => List.mem_takeWhile_imp) number, ?_⟩
      intro _ c isFirst
      -- A word character behind the digits would be an error.
      cases isWord : isWordChar c with
      | false => rfl
      | true =>
          obtain ⟨others, shape⟩ : ∃ others, unsigned.dropWhile isDigitOrSeparator = c :: others :=
            List.head?_eq_some_iff.mp (Option.mem_def.mp isFirst)
          rw [shape, List.takeWhile_cons_of_pos isWord] at ended
          cases ended
  · cases read

/-- A sign is told apart from what is behind it. -/
theorem splitSign_of_signed {sign run : List Char}
    (signed : sign = ['+'] ∨ sign = ['-'] ∨ sign = [] ∧ ∃ c ∈ run.head?, c.isDigit = true)
    (rest : List Char) : splitSign (sign ++ run ++ rest) = (sign, run ++ rest) := by
  rcases signed with rfl | rfl | ⟨rfl, c, isFirst, digit⟩
  · rfl
  · rfl
  · obtain ⟨others, rfl⟩ := List.head?_eq_some_iff.mp (Option.mem_def.mp isFirst)
    exact splitSign_of_digit digit

theorem first_of_signed {sign run : List Char}
    (signed : sign = ['+'] ∨ sign = ['-'] ∨ sign = [] ∧ ∃ c ∈ run.head?, c.isDigit = true)
    (rest : List Char) : ∃ c others, sign ++ run ++ rest = c :: others ∧
      (c = '+' ∨ c = '-' ∨ c.isDigit = true) := by
  rcases signed with rfl | rfl | ⟨rfl, c, isFirst, digit⟩
  · exact ⟨_, _, rfl, .inl rfl⟩
  · exact ⟨_, _, rfl, .inr (.inl rfl)⟩
  · obtain ⟨others, rfl⟩ := List.head?_eq_some_iff.mp (Option.mem_def.mp isFirst)
    exact ⟨_, _, rfl, .inr (.inr digit)⟩

theorem ofInteger_of_spells {sign run : List Char} {value : Int}
    (signed : sign = ['+'] ∨ sign = ['-'] ∨ sign = [] ∧ ∃ c ∈ run.head?, c.isDigit = true)
    (digits : ∀ c ∈ run, isDigitOrSeparator c = true)
    (number : integerValue? sign run = some value)
    (stops : ∀ c ∈ rest.head?, isWordChar c = false) :
    ofInteger start (sign ++ run ++ rest) = .ok ⟨.integer value, sign ++ run, rest⟩ := by
  have ended := run_ends_of_stop stops
  simp only [ofInteger, splitSign_of_signed signed, takeWhile_append_of_stop digits ended,
    dropWhile_append_of_stop digits ended, takeWhile_of_stop stops, number]

theorem ofIdentifier_spells (read : ofIdentifier start text = .ok lexeme) :
    Spells lexeme.kind lexeme.characters ∧ Stops lexeme.kind lexeme.rest := by
  unfold ofIdentifier at read
  split at read
  · cases read
  next nonempty =>
      cases read
      exact ⟨.identifier nonempty fun _ => List.mem_takeWhile_imp, fun _ =>
        not_accepted_behind_run _⟩

theorem ofIdentifier_of_spells {name : List Char} (nonempty : name ≠ [])
    (word : ∀ c ∈ name, isWordChar c = true) (stops : ∀ c ∈ rest.head?, isWordChar c = false) :
    ofIdentifier start (name ++ rest) =
      .ok ⟨.identifier (String.ofList name), '$' :: name, rest⟩ := by
  unfold ofIdentifier
  rw [takeWhile_append_of_stop word stops, dropWhile_append_of_stop word stops]
  cases name with
  | nil => exact absurd rfl nonempty
  | cons c name => rfl

theorem read_spells (read : Lexeme.read start text = .ok lexeme) (more : text ≠ []) :
    Spells lexeme.kind lexeme.characters ∧ Stops lexeme.kind lexeme.rest := by
  cases text with
  | nil => exact absurd rfl more
  | cons c text =>
      rw [Lexeme.read] at read
      split at read
      next => exact ofString_spells read
      split at read
      next left =>
          cases read
          rw [left]
          exact ⟨.leftParen, .of_alone rfl⟩
      split at read
      next right =>
          cases read
          rw [right]
          exact ⟨.rightParen, .of_alone rfl⟩
      split at read
      next lower =>
          cases read
          exact ofWord_spells lower
      split at read
      next first => exact ofInteger_spells first read
      split at read
      next => exact ofIdentifier_spells read
      · cases read

theorem isLower_of_isDigit {c : Char} (digit : c.isDigit = true) : c.isLower = false := by
  have isLower : c.isLower = (decide ('a'.val ≤ c.val) && decide (c.val ≤ 'z'.val)) := rfl
  simp only [Char.isDigit, isLower, Bool.and_eq_true, decide_eq_true_eq,
    Bool.and_eq_false_iff, decide_eq_false_iff_not] at *
  grind

theorem read_integer {c : Char} (first : c = '+' ∨ c = '-' ∨ c.isDigit = true) :
    Lexeme.read start (c :: text) = ofInteger start (c :: text) := by
  have other (d : Char) (noSign : d ≠ '+' ∧ d ≠ '-') (noDigit : d.isDigit = false) : c ≠ d := by
    rintro rfl
    rcases first with rfl | rfl | digit
    · exact noSign.1 rfl
    · exact noSign.2 rfl
    · rw [noDigit] at digit
      cases digit
  have notLower : ¬c.isLower = true := by
    rcases first with rfl | rfl | digit
    · decide
    · decide
    · simp [isLower_of_isDigit digit]
  rw [Lexeme.read, if_neg (other '"' (by decide) (by decide)),
    if_neg (other '(' (by decide) (by decide)), if_neg (other ')' (by decide) (by decide)),
    if_neg notLower, if_pos first]

theorem read_word {characters : List Char} (isWord : IsWord characters)
    (stops : ∀ c ∈ rest.head?, isWordChar c = false) :
    Lexeme.read start (characters ++ rest) =
      .ok ⟨(ofWord (characters ++ rest)).kind, characters, rest⟩ := by
  obtain ⟨c, first, lower⟩ := isWord.lower
  obtain ⟨others, rfl⟩ := List.head?_eq_some_iff.mp (Option.mem_def.mp first)
  have other (d : Char) (notLower : d.isLower = false) : c ≠ d := by
    rintro rfl
    rw [notLower] at lower
    cases lower
  rw [List.cons_append, Lexeme.read, if_neg (other '"' (by decide)), if_neg (other '(' (by decide)),
    if_neg (other ')' (by decide)), if_pos lower, ofWord, ← List.cons_append,
    takeWhile_append_of_stop isWord.word stops, dropWhile_append_of_stop isWord.word stops]

/-- A lexeme is read wherever it stands, if the rest of the text does not make
it go on. -/
theorem read_of_spells {kind : TokenKind} {characters : List Char}
    (spells : Spells kind characters) (stops : Stops kind rest) :
    Lexeme.read start (characters ++ rest) = .ok ⟨kind, characters, rest⟩ := by
  cases spells with
  | leftParen => rfl
  | rightParen => rfl
  | string plain =>
      rw [List.cons_append, Lexeme.read, if_pos rfl, ofString, List.append_assoc,
        List.singleton_append, stringBody_escaped plain]
      rfl
  | @integer sign run value signed digits number =>
      have read : ofInteger start (sign ++ run ++ rest) = .ok ⟨_, sign ++ run, rest⟩ :=
        ofInteger_of_spells signed digits number (stops rfl)
      obtain ⟨c, others, shape, first⟩ := first_of_signed signed rest
      rw [shape] at read ⊢
      rw [read_integer first, read]
  | identifier nonempty word =>
      exact ofIdentifier_of_spells nonempty word (stops rfl)
  | keyword isWord found =>
      simp only [read_word isWord (stops rfl), ofWord,
        takeWhile_append_of_stop isWord.word (stops rfl), found]
  | reserved isWord unknown =>
      simp only [read_word isWord (stops rfl), ofWord,
        takeWhile_append_of_stop isWord.word (stops rfl), unknown]

/-- At the end of a text its end is read, and otherwise the lexeme that it
starts with. -/
theorem read_eq_ok :
    Lexeme.read start text = .ok lexeme ↔
      text = [] ∧ lexeme = ⟨.endOfInput, [], []⟩ ∨
      Spells lexeme.kind lexeme.characters ∧ Stops lexeme.kind lexeme.rest ∧
        text = lexeme.characters ++ lexeme.rest := by
  constructor
  · intro read
    rcases read_takes read with atEnd | takes
    · exact .inl atEnd
    · have more : text ≠ [] := by
        rw [takes.shape]
        exact List.append_ne_nil_of_left_ne_nil takes.nonempty _
      obtain ⟨spells, stops⟩ := read_spells read more
      exact .inr ⟨spells, stops, takes.shape⟩
  · rintro (⟨rfl, rfl⟩ | ⟨spells, stops, rfl⟩)
    · rfl
    · exact read_of_spells spells stops

end Reading

end Lexeme

section Steps

variable {cursor after : Cursor} {token : Token}

/-- A step that does not come to the end of the input makes the text shorter. -/
theorem Cursor.next_shorter (stepped : cursor.next = .ok (token, after))
    (continues : token.isEnd = false) : after.rest.length < cursor.rest.length := by
  rcases Cursor.next_takes stepped with ⟨_, rfl⟩ | ⟨gap, _, _, nonempty, shape, _, _⟩
  · cases continues
  · have lengths := congrArg List.length shape
    have positive : 0 < token.text.toList.length := by
      rw [List.length_pos_iff]
      simpa using nonempty
    simp only [Tile.text, List.length_append] at lengths
    omega

theorem Cursor.after_next (stepped : cursor.next = .ok (token, after))
    (continues : token.isEnd = false) :
    after.position.after after.rest = cursor.position.after cursor.rest := by
  rcases Cursor.next_takes stepped with ⟨_, rfl⟩ | ⟨gap, _, _, _, shape, place, _⟩
  · cases continues
  · rw [place, shape, Position.after_append]

/-- Lexing goes from step to step until it comes to the end of the input or to
an error. -/
@[elab_as_elim]
theorem Cursor.induct_steps {motive : Cursor → Prop}
    (fails : ∀ {cursor error}, cursor.next = .error error → motive cursor)
    (ends : ∀ {cursor token after}, cursor.next = .ok (token, after) → token.isEnd = true →
      motive cursor)
    (step : ∀ {cursor token after}, cursor.next = .ok (token, after) → token.isEnd = false →
      motive after → motive cursor)
    (cursor : Cursor) : motive cursor := by
  induction length : cursor.rest.length using Nat.strong_induction_on generalizing cursor with
  | _ count ih =>
      cases stepped : cursor.next with
      | error error => exact fails stepped
      | ok result =>
          obtain ⟨token, after⟩ := result
          cases ended : token.isEnd with
          | true => exact ends stepped ended
          | false =>
              have shorter := Cursor.next_shorter stepped ended
              exact step stepped ended (ih _ (length ▸ shorter) after rfl)

end Steps

namespace Lexer

theorem collect_succ (count : Nat) (cursor : Cursor) :
    collect (count + 1) ⟨cursor, false⟩ =
      match cursor.next with
      | .error error => .error error
      | .ok (token, after) =>
          if token.isEnd then .ok [token]
          else (collect count ⟨after, false⟩).map (token :: ·) := by
  cases stepped : cursor.next with
  | error error => simp [collect, next, stepped]
  | ok step =>
      obtain ⟨token, after⟩ := step
      have unfolded : collect (count + 1) ⟨cursor, false⟩ =
          collect count ⟨after, token.isEnd⟩ >>= fun others => .ok (token :: others) := by
        simp [collect, next, stepped]
      rw [unfolded]
      dsimp only
      cases token.isEnd with
      | true =>
          rw [collect_finished]
          rfl
      | false => cases collect count ⟨after, false⟩ <;> rfl

/-- Every count of steps that exceeds the characters of a text is as good. -/
theorem collect_of_enough {count more : Nat} {cursor : Cursor}
    (enough : cursor.rest.length < count) (alsoEnough : cursor.rest.length < more) :
    collect count ⟨cursor, false⟩ = collect more ⟨cursor, false⟩ := by
  induction count generalizing more cursor with
  | zero => omega
  | succ count ih =>
      cases more with
      | zero => omega
      | succ more =>
          rw [collect_succ, collect_succ]
          cases stepped : cursor.next with
          | error error => rfl
          | ok step =>
              obtain ⟨token, after⟩ := step
              cases continues : token.isEnd with
              | true => simp only [continues, if_true]
              | false =>
                  have shorter := Cursor.next_shorter stepped continues
                  have same : collect count ⟨after, false⟩ = collect more ⟨after, false⟩ :=
                    ih (by omega) (by omega)
                  simp only [same]

end Lexer

namespace Cursor

/-- All tokens from a place on, or the first lexical error there. -/
def tokens (cursor : Cursor) : Except LexError (List Token) :=
  Lexer.collect (cursor.rest.length + 1) ⟨cursor, false⟩

theorem tokens_of_error {cursor : Cursor} {error : LexError}
    (failed : cursor.next = .error error) : cursor.tokens = .error error := by
  rw [tokens, Lexer.collect_succ, failed]

theorem tokens_of_end {cursor after : Cursor} {token : Token}
    (stepped : cursor.next = .ok (token, after)) (ended : token.isEnd = true) :
    cursor.tokens = .ok [token] := by
  rw [tokens, Lexer.collect_succ, stepped]
  simp only [ended, if_true]

theorem tokens_of_next {cursor after : Cursor} {token : Token}
    (stepped : cursor.next = .ok (token, after)) (continues : token.isEnd = false) :
    cursor.tokens = after.tokens.map (token :: ·) := by
  have shorter := next_shorter stepped continues
  have enough : Lexer.collect cursor.rest.length ⟨after, false⟩ = after.tokens :=
    Lexer.collect_of_enough shorter (Nat.lt_succ_self _)
  rw [tokens, Lexer.collect_succ, stepped]
  simp [continues, enough]

/-- The tokens from two places on are the same if the next step is. -/
theorem tokens_congr {cursor other : Cursor} (same : cursor.next = other.next) :
    cursor.tokens = other.tokens := by
  cases stepped : other.next with
  | error error => rw [tokens_of_error stepped, tokens_of_error (same.trans stepped)]
  | ok step =>
      obtain ⟨token, after⟩ := step
      cases continues : token.isEnd with
      | true => rw [tokens_of_end stepped continues, tokens_of_end (same.trans stepped) continues]
      | false =>
          rw [tokens_of_next stepped continues, tokens_of_next (same.trans stepped) continues]

end Cursor

theorem tokenise_eq_tokens (source : String) :
    tokenise source = (Cursor.ofCharacters source.toList).tokens :=
  rfl

end WatMachine
