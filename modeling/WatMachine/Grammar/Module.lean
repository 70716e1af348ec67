import WatMachine.Grammar.Field
import WatMachine.Token.Lexer

/-!
# Reading modules

A module is one group, `( module id? field* )`, and nothing behind it.  Its
definitions are declared before its fields are read.
-/

namespace WatMachine

namespace Builder

/-- Reads a module up to the end of input. -/
def module : Builder Module := do
  Reader.openGroup .moduleForm
  let id ← Reader.identifier?
  declareAll
  let fields ← fields ((← getThe TokenStream).ahead.length + 1)
  Reader.rightParen
  if (← Reader.current).isEnd then
    return ⟨id, fields, (← get).environment⟩
  else
    Reader.unexpected .endOfInput

end Builder

namespace Module

/-- The module that a token stream holds. -/
def ofStream (stream : TokenStream) : Except ParseError Module := do
  let ((module, _), _) ← (Builder.module.run .empty).run stream
  return module

/-- The module that tokens spell. -/
def ofTokens (tokens : List Token) : Except ParseError Module :=
  ofStream (.ofTokens tokens)

/-- The module that a source text spells. -/
def parse (source : String) : Except ParseError Module :=
  match tokenise source with
  | .ok tokens => ofTokens tokens
  | .error error => .error (.ofLexError error)

end Module

end WatMachine
