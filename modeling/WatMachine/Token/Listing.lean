import WatMachine.Text.JsonValue
import WatMachine.Token

/-!
# Token listings

The tokens of a source as a JSON document, for people and tools to look at.
-/

namespace WatMachine

namespace TokenKind

/-- The name of a kind and its payload, if it has one. -/
def listing : TokenKind → String × Option JsonValue
  | leftParen => ("LeftParen", none)
  | rightParen => ("RightParen", none)
  | string value => ("String", some (.text value))
  | integer value => ("Integer", some (.number value))
  | identifier name => ("Id", some (.text name))
  | keyword word => ("Keyword", some (.text word.spelling))
  | reserved word => ("Reserved", some (.text word))
  | endOfInput => ("Eof", none)

/-- A kind as a JSON object. -/
def toJson (kind : TokenKind) : JsonValue :=
  let (name, payload) := kind.listing
  .object (("kind", .text name) :: payload.toList.map fun value => ("value", value))

end TokenKind

namespace Source

namespace Span

/-- A span as a JSON object. -/
def toJson (span : Span) : JsonValue :=
  .object [("start", .number span.start), ("end", .number span.stop),
    ("line", .number span.line), ("column", .number span.column)]

end Span

end Source

namespace Token

/-- A token as a JSON object. -/
def toJson (token : Token) : JsonValue :=
  .object [("kind", token.kind.toJson), ("text", .text token.text),
    ("span", token.span.toJson)]

/-- A list of tokens as a JSON document. -/
def listing (tokens : List Token) : String :=
  JsonValue.pretty 0 (.list (tokens.map toJson))

end Token

end WatMachine
