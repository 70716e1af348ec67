import WatMachine.Token
import WatMachine.Token.LexError

/-!
# Lexing source text

The lexer walks over the characters of a source text.  It skips blanks and
comments and then reads one lexeme, whose first character decides what it
is.  A lexer yields its tokens one by one: the last item is either the token
that ends the input or the first error, and nothing follows it.

Any number of comments may be open inside each other.  A counter of 32 bits
agrees with that only while fewer than `2 ^ 32` of them are open.
-/

namespace WatMachine

open Source

/-- A place in a source text: its position and the text from there on. -/
structure Cursor where
  position : Position
  rest : List Char
  deriving Repr, DecidableEq

/-- A lexeme at the start of a text: its kind, its characters and the text
behind it. -/
structure Lexeme where
  kind : TokenKind
  characters : List Char
  rest : List Char
  deriving Repr, DecidableEq

namespace Lexeme

/-- Characters that separate tokens without a meaning of their own. -/
def isBlank (c : Char) : Bool :=
  c == ' ' || c == '\t' || c == '\n' || c == '\r' || c == '\x0c'

/-- The characters other than letters and digits that words may contain. -/
def wordSymbols : List Char :=
  ['!', '#', '$', '%', '&', '\x27', '*', '+', '-', '.', '/', ':', '<', '=',
    '>', '?', '@', '\\', '^', '_', '\x60', '|', '~']

/-- Characters that may stand in keywords and identifiers. -/
def isWordChar (c : Char) : Bool :=
  c.isAlphanum || wordSymbols.contains c

/-- Digits and the separator between them. -/
def isDigitOrSeparator (c : Char) : Bool :=
  c.isDigit || c == '_'

/-- What the text before the next lexeme is inside of. -/
inductive Trivia where
  | blank
  | lineComment
  /-- A block comment opened at `start` with `depth` more comments open
  inside it. -/
  | blockComment (start : Position) (depth : Nat)
  deriving Repr, DecidableEq

/-- The place of the next lexeme, behind blanks and comments.  Block comments
nest; a line comment ends with its line. -/
def skipTrivia : Trivia → Position → List Char → Except LexError Cursor
  | .blank, position, [] => .ok ⟨position, []⟩
  | .blank, position, '(' :: ';' :: rest =>
      skipTrivia (.blockComment position 0) (position.after ['(', ';']) rest
  | .blank, position, ';' :: ';' :: rest =>
      skipTrivia .lineComment (position.after [';', ';']) rest
  | .blank, position, c :: rest =>
      if isBlank c then skipTrivia .blank (position.advance c) rest
      else .ok ⟨position, c :: rest⟩
  | .lineComment, position, [] => .ok ⟨position, []⟩
  | .lineComment, position, c :: rest =>
      skipTrivia (if c = '\n' then .blank else .lineComment)
        (position.advance c) rest
  | .blockComment start _, position, [] =>
      .error ⟨.unterminatedComment, start.spanTo position⟩
  | .blockComment start depth, position, '(' :: ';' :: rest =>
      skipTrivia (.blockComment start (depth + 1))
        (position.after ['(', ';']) rest
  | .blockComment _ 0, position, ';' :: ')' :: rest =>
      skipTrivia .blank (position.after [';', ')']) rest
  | .blockComment start (depth + 1), position, ';' :: ')' :: rest =>
      skipTrivia (.blockComment start depth) (position.after [';', ')']) rest
  | .blockComment start depth, position, c :: rest =>
      skipTrivia (.blockComment start depth) (position.advance c) rest

/-- The body of a string opened at `start`, with the closing quote: its raw
characters, the text they stand for and what follows them. -/
def stringBody (start : Position) :
    Position → List Char → Except LexError (List Char × List Char × List Char)
  | position, [] => .error ⟨.unterminatedString, start.spanTo position⟩
  | _, '"' :: rest => .ok (['"'], [], rest)
  | position, '\\' :: '"' :: rest => do
      let (raw, value, rest) ← stringBody start (position.after ['\\', '"']) rest
      .ok ('\\' :: '"' :: raw, '"' :: value, rest)
  | position, c :: rest =>
      if c = '\\' then
        .error ⟨.malformedString, (position.advance c).spanHere⟩
      else do
        let (raw, value, rest) ← stringBody start (position.advance c) rest
        .ok (c :: raw, c :: value, rest)

/-- A string literal, from the characters behind its opening quote. -/
def ofString (start : Position) (rest : List Char) : Except LexError Lexeme := do
  let (raw, value, rest) ← stringBody start (start.advance '"') rest
  .ok ⟨.string (String.ofList value), '"' :: raw, rest⟩

/-- A keyword or a reserved word. -/
def ofWord (characters : List Char) : Lexeme :=
  let word := String.ofList (characters.takeWhile isWordChar)
  let kind := match Keyword.ofSpelling? word with
    | some keyword => .keyword keyword
    | none => .reserved word
  ⟨kind, characters.takeWhile isWordChar, characters.dropWhile isWordChar⟩

/-- The sign of a number, if one is written, and the characters behind it. -/
def splitSign : List Char → List Char × List Char
  | '+' :: rest => (['+'], rest)
  | '-' :: rest => (['-'], rest)
  | characters => ([], characters)

/-- The number that decimal digits stand for. -/
def digitsValue (digits : List Char) : Nat :=
  digits.foldl (fun value digit => 10 * value + (digit.toNat - '0'.toNat)) 0

/-- Whether a number fits in 64 bits with a sign. -/
def fitsSigned64 (value : Int) : Bool :=
  decide (-0x8000000000000000 ≤ value) && decide (value < 0x8000000000000000)

/-- The number written by a sign and a run of digits and separators, if it
has a digit and fits in 64 bits. -/
def integerValue? (sign run : List Char) : Option Int :=
  let digits := run.filter Char.isDigit
  let magnitude : Int := digitsValue digits
  let value := if sign = ['-'] then -magnitude else magnitude
  if !digits.isEmpty && fitsSigned64 value then some value else none

/-- An integer literal.  A number that runs straight into another word is
none. -/
def ofInteger (start : Position) (characters : List Char) :
    Except LexError Lexeme :=
  let (sign, unsigned) := splitSign characters
  let run := unsigned.takeWhile isDigitOrSeparator
  let rest := unsigned.dropWhile isDigitOrSeparator
  let trailing := rest.takeWhile isWordChar
  match trailing, integerValue? sign run with
  | [], some value => .ok ⟨.integer value, sign ++ run, rest⟩
  | _, _ =>
      let text := sign ++ run ++ trailing
      .error ⟨.invalidInteger (String.ofList text), start.spanTo (start.after text)⟩

/-- An identifier, from the characters behind its `$`. -/
def ofIdentifier (start : Position) (rest : List Char) : Except LexError Lexeme :=
  match rest.takeWhile isWordChar with
  | [] => .error ⟨.emptyIdentifier, start.spanTo (start.advance '$')⟩
  | name => .ok ⟨.identifier (String.ofList name), '$' :: name, rest.dropWhile isWordChar⟩

/-- The lexeme at the start of a text that does not begin with trivia. -/
def read (start : Position) : List Char → Except LexError Lexeme
  | [] => .ok ⟨.endOfInput, [], []⟩
  | c :: rest =>
      if c = '"' then ofString start rest
      else if c = '(' then .ok ⟨.leftParen, [c], rest⟩
      else if c = ')' then .ok ⟨.rightParen, [c], rest⟩
      else if c.isLower then .ok (ofWord (c :: rest))
      else if c = '+' ∨ c = '-' ∨ c.isDigit then ofInteger start (c :: rest)
      else if c = '$' then ofIdentifier start rest
      else .error ⟨.unexpectedCharacter c, start.spanTo (start.advance c)⟩

end Lexeme

namespace Cursor

/-- The start of a text. -/
def ofCharacters (characters : List Char) : Cursor := ⟨.first, characters⟩

/-- The next token and the place behind it. -/
def next (cursor : Cursor) : Except LexError (Token × Cursor) := do
  let ⟨start, rest⟩ ← Lexeme.skipTrivia .blank cursor.position cursor.rest
  let ⟨kind, characters, rest⟩ ← Lexeme.read start rest
  let stop := start.after characters
  .ok (⟨kind, String.ofList characters, start.spanTo stop⟩, ⟨stop, rest⟩)

end Cursor

/-- A source text being lexed, and whether its last item has been given. -/
structure Lexer where
  cursor : Cursor
  finished : Bool
  deriving Repr, DecidableEq

namespace Lexer

/-- A lexer at the start of a text. -/
def ofCharacters (characters : List Char) : Lexer :=
  ⟨.ofCharacters characters, false⟩

/-- A lexer at the start of a source. -/
def ofSource (source : String) : Lexer :=
  ofCharacters source.toList

/-- The next item, if any, and the lexer behind it. -/
def next (lexer : Lexer) : Option (Except LexError Token) × Lexer :=
  if lexer.finished then (none, lexer)
  else match lexer.cursor.next with
    | .ok (token, cursor) => (some (.ok token), ⟨cursor, token.isEnd⟩)
    | .error error => (some (.error error), ⟨lexer.cursor, true⟩)

/-- The next `count` items. -/
def take : Nat → Lexer → List (Option (Except LexError Token))
  | 0, _ => []
  | count + 1, lexer => lexer.next.1 :: take count lexer.next.2

/-- The tokens among the next `count` items, or the first error there. -/
def collect : Nat → Lexer → Except LexError (List Token)
  | 0, _ => .ok []
  | count + 1, lexer =>
      match lexer.next with
      | (none, _) => .ok []
      | (some (.error error), _) => .error error
      | (some (.ok token), lexer) => do
          let tokens ← collect count lexer
          .ok (token :: tokens)

end Lexer

/-- All tokens of a text, or its first lexical error.  Every token but the
last takes at least one character, so there are at most one more than
characters. -/
def tokeniseCharacters (characters : List Char) : Except LexError (List Token) :=
  (Lexer.ofCharacters characters).collect (characters.length + 1)

/-- All tokens of a source, or its first lexical error. -/
def tokenise (source : String) : Except LexError (List Token) :=
  tokeniseCharacters source.toList

end WatMachine
