import WatMachine.Source.Position
import WatMachine.Text.Quoted

/-!
# Lexical errors

Lexing stops at the first fault and reports it with the stretch of source
text it concerns.
-/

namespace WatMachine

/-- Why a source text has no next token. -/
inductive LexFault where
  /-- No token starts with this character. -/
  | unexpectedCharacter (found : Char)
  /-- A backslash in a string precedes something other than a quote. -/
  | malformedString
  | unterminatedString
  | unterminatedComment
  /-- A text that starts like an integer but is none, or is out of range. -/
  | invalidInteger (text : String)
  /-- A `$` without a name behind it. -/
  | emptyIdentifier
  deriving Repr, DecidableEq

/-- A lexical fault and the source text it concerns. -/
structure LexError where
  fault : LexFault
  span : Source.Span
  deriving Repr, DecidableEq

namespace LexFault

/-- The part of a message that precedes the place of the fault. -/
def phrase : LexFault → String
  | unexpectedCharacter found =>
      "unexpected character " ++ Text.quotedChar found
  | malformedString =>
      "malformed string: only \\\" may follow a backslash,"
  | unterminatedString => "unterminated string starting"
  | unterminatedComment => "unterminated block comment starting"
  | invalidInteger text => "invalid integer literal " ++ Text.quoted text
  | emptyIdentifier => "empty identifier"

end LexFault

namespace LexError

/-- The message of a lexical error. -/
def message (error : LexError) : String :=
  error.fault.phrase ++ " at " ++ error.span.describe

end LexError

end WatMachine
