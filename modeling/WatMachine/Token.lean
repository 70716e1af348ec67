import WatMachine.Keyword
import WatMachine.Source.Position
import WatMachine.Text.Quoted

/-!
# Tokens

A token keeps its decoded kind, the raw text it was read from and where it
was found.  Words of keyword shape that are not in the table are kept as
reserved words, so that a reader can report them by name.
-/

namespace WatMachine

/-- What a token is, with its decoded payload where it has one. -/
inductive TokenKind where
  | leftParen
  | rightParen
  /-- A string literal with its escapes resolved. -/
  | string (value : String)
  /-- An integer literal with its separators removed. -/
  | integer (value : Int)
  /-- An identifier without its leading `$`. -/
  | identifier (name : String)
  | keyword (word : Keyword)
  /-- A word of keyword shape outside the keyword table. -/
  | reserved (word : String)
  | endOfInput
  deriving Repr, DecidableEq, Inhabited

/-- A token: its kind, its raw text and where it was found. -/
structure Token where
  kind : TokenKind
  text : String
  span : Source.Span
  deriving Repr, DecidableEq, Inhabited

namespace TokenKind

/-- How messages describe a token of this kind. -/
def describe : TokenKind → String
  | leftParen => "'('"
  | rightParen => "')'"
  | string value => "string " ++ Text.quoted value
  | integer value => "integer " ++ toString value
  | identifier name => "$" ++ name
  | keyword word => "'" ++ word.spelling ++ "'"
  | reserved word => "'" ++ word ++ "'"
  | endOfInput => "end of input"

/-- The keyword of a keyword token. -/
def keyword? : TokenKind → Option Keyword
  | keyword word => some word
  | _ => none

/-- The name of an identifier token. -/
def identifier? : TokenKind → Option String
  | identifier name => some name
  | _ => none

/-- Whether a token names a value type. -/
def isValueType (kind : TokenKind) : Bool :=
  kind.keyword?.any Keyword.isValueType

end TokenKind

namespace Token

/-- The token that ends every input, at a given span. -/
def endAt (span : Source.Span) : Token := ⟨.endOfInput, "", span⟩

/-- Whether a token ends the input. -/
def isEnd (token : Token) : Bool :=
  token.kind == .endOfInput

/-- How messages describe a token together with its place. -/
def describe (token : Token) : String :=
  token.kind.describe ++ " at " ++ token.span.describe

end Token

end WatMachine
