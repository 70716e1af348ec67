import WatMachine.Grammar.ParseError
import WatMachine.Module.Frame

/-!
# Readers of tokens

A token stream shows the tokens that are still to be read and never ends: its
last token, which ends the input, is shown again and again, and no reader
gets past a token that ends the input.  A reader takes tokens from the front
of a stream and gives a value, or fails at a token that does not fit.
-/

namespace WatMachine

/-- The tokens still to be read, and the span of the end of input behind
them. -/
structure TokenStream where
  ahead : List Token
  finish : Source.Span
  deriving Repr, DecidableEq

/-- Takes tokens from the front of a stream, or fails. -/
abbrev Reader (α : Type) := StateT TokenStream (Except ParseError) α

namespace TokenStream

/-- A stream of tokens.  If the last of them does not end the input, the
input ends just behind it. -/
def ofTokens (tokens : List Token) : TokenStream :=
  match tokens.getLast? with
  | none => ⟨[], .origin⟩
  | some last =>
      if last.isEnd then ⟨tokens.dropLast, last.span⟩
      else ⟨tokens, last.span.behind⟩

/-- The token some places ahead of the current one. -/
def nth (stream : TokenStream) (distance : Nat) : Token :=
  stream.ahead.getD distance (.endAt stream.finish)

/-- The token to be read next. -/
def current (stream : TokenStream) : Token :=
  stream.nth 0

/-- The stream behind the current token.  The end of input stays in front. -/
def advance (stream : TokenStream) : TokenStream :=
  if stream.current.isEnd then stream
  else { stream with ahead := stream.ahead.tail }

/-- Whether the current token opens a group. -/
def atLeftParen (stream : TokenStream) : Bool :=
  stream.current.kind == .leftParen

/-- Whether a group with the given head word comes next. -/
def atGroup (word : Keyword) (stream : TokenStream) : Bool :=
  stream.atLeftParen && (stream.nth 1).kind == .keyword word

/-- Whether a value type comes next. -/
def atValueType (stream : TokenStream) : Bool :=
  stream.current.kind.isValueType

/-- The error of finding the current token where something else should be. -/
def unexpected (stream : TokenStream) (expected : Expectation) : ParseError :=
  ⟨.unexpected expected stream.current.kind, stream.current.span⟩

/-- The tokens behind the parenthesis that closes the outermost of
`depth + 1` open groups.  A group that the input does not close is an error
at the end of input. -/
def closeGroups (finish : Source.Span) :
    Nat → List Token → Except ParseError (List Token)
  | _, [] => .error ⟨.unexpected .rightParen .endOfInput, finish⟩
  | depth, token :: rest =>
      match token.kind, depth with
      | .endOfInput, _ => .error ⟨.unexpected .rightParen .endOfInput, token.span⟩
      | .leftParen, depth => closeGroups finish (depth + 1) rest
      | .rightParen, 0 => .ok rest
      | .rightParen, depth + 1 => closeGroups finish depth rest
      | _, depth => closeGroups finish depth rest

end TokenStream

namespace Reader

variable {α : Type}

/-- Fails with a fault at a span. -/
def fail (fault : ParseFault) (span : Source.Span) : Reader α :=
  throw ⟨fault, span⟩

/-- Fails for lack of fuel. -/
def outOfFuel : Reader α := do
  fail .outOfFuel (← get).current.span

/-- Fails at the current token, where something else is expected. -/
def unexpected (expected : Expectation) : Reader α := do
  throw ((← get).unexpected expected)

/-- The token to be read next, without reading it. -/
def current : Reader Token := do
  return (← get).current

/-- Reads one token, whatever it is. -/
def advance : Reader Token := do
  let stream ← get
  set stream.advance
  return stream.current

/-- Reads a token of a kind that is asked for, and gives its value and
span. -/
def accept (expected : Expectation) (select : TokenKind → Option α) :
    Reader (α × Source.Span) := do
  let token ← current
  match select token.kind with
  | some value =>
      let _ ← advance
      return (value, token.span)
  | none => unexpected expected

/-- Reads one given token. -/
def acceptKind (expected : Expectation) (kind : TokenKind) : Reader Unit := do
  let _ ← accept expected fun found => if found = kind then some () else none

/-- Reads a `(`. -/
def leftParen : Reader Unit :=
  acceptKind .leftParen .leftParen

/-- Reads a `)`. -/
def rightParen : Reader Unit :=
  acceptKind .rightParen .rightParen

/-- Reads a given keyword. -/
def keyword (word : Keyword) : Reader Unit :=
  acceptKind (.keyword word) (.keyword word)

/-- Reads the start of a group with a given head word. -/
def openGroup (word : Keyword) : Reader Unit := do
  leftParen
  keyword word

/-- The text of a string literal. -/
def stringValue? : TokenKind → Option String
  | .string value => some value
  | _ => none

/-- The number of an integer literal. -/
def integerValue? : TokenKind → Option Int
  | .integer value => some value
  | _ => none

/-- The number of an integer literal that fits in 32 bits without a sign. -/
def naturalValue? : TokenKind → Option Nat
  | .integer value => if 0 ≤ value ∧ value < 0x100000000 then some value.toNat else none
  | _ => none

/-- The reference that a name or a small enough number makes. -/
def reference? : TokenKind → Option Identifier
  | .identifier name => some (.name name)
  | kind => (naturalValue? kind).map .index

/-- Reads a string literal. -/
def string : Reader String := do
  let (value, _) ← accept .string stringValue?
  return value

/-- Reads an integer literal and gives its span too. -/
def integer : Reader (Int × Source.Span) :=
  accept .integer integerValue?

/-- Reads an integer literal that fits in 32 bits without a sign. -/
def natural (expected : Expectation) : Reader Nat := do
  let (value, _) ← accept expected naturalValue?
  return value

/-- Reads a value type. -/
def valueType : Reader ValueType := do
  let (type, _) ← accept .valueType fun kind => kind.keyword?.bind ValueType.ofKeyword?
  return type

/-- Reads an identifier if one comes next. -/
def identifier? : Reader (Option String) := do
  match (← current).kind with
  | .identifier name =>
      let _ ← advance
      return some name
  | _ => return none

/-- Reads a reference and resolves it. -/
def resolved (expected : Expectation) (referent : Referent)
    (resolve : Identifier → Option Nat) : Reader (Nat × Source.Span) := do
  let (identifier, span) ← accept expected reference?
  match resolve identifier with
  | some index => return (index, span)
  | none => fail (.undefined referent identifier) span

/-- Skips everything up to the `)` that closes the innermost open group. -/
def closeGroup : Reader Unit := do
  let stream ← get
  let ahead ← TokenStream.closeGroups stream.finish 0 stream.ahead
  set { stream with ahead }

/-- Skips a group from its `(` to its `)`. -/
def skipGroup : Reader Unit := do
  leftParen
  closeGroup

/-- Reads items as long as the stream shows the start of one, at most as many
as the clock has tokens. -/
def repeatWhile (here : TokenStream → Bool) (item : Reader α) :
    List Token → Reader (List α)
  | [] => do
      if here (← get) then outOfFuel else return []
  | _ :: clock => do
      if here (← get) then
        let first ← item
        let others ← repeatWhile here item clock
        return first :: others
      else
        return []

/-- Reads items as long as the stream shows the start of one.  Every item
takes a token, so the tokens ahead are clock enough. -/
def many (here : TokenStream → Bool) (item : Reader α) : Reader (List α) := do
  repeatWhile here item (← get).ahead

end Reader

end WatMachine
