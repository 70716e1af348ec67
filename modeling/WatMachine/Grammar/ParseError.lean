import WatMachine.Environment
import WatMachine.Token
import WatMachine.Token.LexError

/-!
# Errors in the grammar of a module

Reading a module stops at the first token that does not fit, and reports
what is wrong with it and where it stands.
-/

namespace WatMachine

/-- What a reader wanted to see. -/
inductive Expectation where
  | leftParen
  | rightParen
  | keyword (word : Keyword)
  | string
  | integer
  | index
  | typeIndex
  | functionIndex
  | localIndex
  | globalIndex
  | label
  | memoryLimit
  | exportTarget
  | importTarget
  | valueType
  | instruction
  | endOfInput
  /-- The label that opened a block, or none if it opened without one. -/
  | closingLabel (opening : Option String)
  /-- A type definition that was met when definitions were declared. -/
  | declaredType
  deriving Repr, DecidableEq

/-- What a reference that cannot be resolved was meant to refer to. -/
inductive Referent where
  | definition (space : IndexSpace)
  | localVariable
  | label
  deriving Repr, DecidableEq

/-- Why tokens are not a module. -/
inductive ParseFault where
  /-- The source text has no token here. -/
  | lexical (fault : LexFault)
  | unexpected (expected : Expectation) (found : TokenKind)
  | undefined (referent : Referent) (identifier : Identifier)
  | unknownInstruction (word : String)
  | constantOutOfRange (value : Int)
  /-- A reader was given less fuel than its input has tokens. -/
  | outOfFuel
  deriving Repr, DecidableEq

/-- A fault in the grammar and the token it concerns. -/
structure ParseError where
  fault : ParseFault
  span : Source.Span
  deriving Repr, DecidableEq

namespace Expectation

/-- How messages describe what was expected. -/
def describe : Expectation → String
  | leftParen => "'('"
  | rightParen => "')'"
  | keyword word => "'" ++ word.spelling ++ "'"
  | string => "string"
  | integer => "integer"
  | index => "index"
  | typeIndex => "type index"
  | functionIndex => "function index"
  | localIndex => "local index"
  | globalIndex => "global index"
  | label => "label"
  | memoryLimit => "memory limit"
  | exportTarget => "export descriptor"
  | importTarget => "import descriptor"
  | valueType => "value type"
  | instruction => "instruction"
  | endOfInput => "end of input"
  | closingLabel (some name) => "label $" ++ name
  | closingLabel none => "no label"
  | declaredType => "pre-declared type definition"

end Expectation

namespace Referent

/-- How messages name what was referred to. -/
def describe : Referent → String
  | definition space => space.describe
  | localVariable => "local"
  | label => "label"

end Referent

namespace ParseFault

/-- The part of a message that precedes the place of the fault. -/
def phrase : ParseFault → String
  | lexical fault => fault.phrase
  | unexpected expected found =>
      "expected " ++ expected.describe ++ ", found " ++ found.describe
  | undefined referent identifier =>
      "undefined " ++ referent.describe ++ ": " ++ identifier.describe
  | unknownInstruction word => "unknown instruction '" ++ word ++ "'"
  | constantOutOfRange value =>
      "constant " ++ toString value ++ " out of range"
  | outOfFuel => "reading stopped early"

end ParseFault

namespace ParseError

/-- The message of an error in the grammar. -/
def message (error : ParseError) : String :=
  error.fault.phrase ++ " at " ++ error.span.describe

/-- A lexical error stops the reading of a module as it is. -/
def ofLexError (error : LexError) : ParseError :=
  ⟨.lexical error.fault, error.span⟩

end ParseError

end WatMachine
