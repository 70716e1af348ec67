import WatMachine.Grammar.Signature
import WatMachine.Module.Instruction

/-!
# Function bodies

A body is a sequence of instructions in flat form, where blocks run up to
their `end`, or in folded form, where an instruction and its operands stand
in parentheses and the operands are executed first.  References are resolved
as they are read: to definitions in the environment, to variables in the
frame and to labels of the enclosing blocks.
-/

namespace WatMachine

/-- What names mean inside a function body. -/
structure Scope where
  environment : Environment
  frame : Frame
  /-- The labels of the enclosing blocks, innermost first. -/
  labels : List (Option String)
  deriving Repr, DecidableEq

namespace Scope

/-- The scope inside one more block. -/
def enter (scope : Scope) (label : Option String) : Scope :=
  { scope with labels := label :: scope.labels }

/-- The index of a variable.  A number stands for itself. -/
def resolveLocal? (scope : Scope) : Identifier → Option Nat
  | .index value => some value
  | .name text => scope.frame.indexOf? text

/-- The depth of a label, counted outward from the innermost block.  A number
stands for itself. -/
def resolveLabel? (scope : Scope) : Identifier → Option Nat
  | .index value => some value
  | .name text => scope.labels.findIdx? (· == some text)

end Scope

namespace TokenKind

/-- The kind of block that a token starts. -/
def blockKind? (kind : TokenKind) : Option BlockKind :=
  kind.keyword?.bind BlockKind.ofKeyword?

/-- Whether no instruction can follow in the same sequence. -/
def endsSequence : TokenKind → Bool
  | rightParen | endOfInput | keyword .blockEnd => true
  | _ => false

end TokenKind

namespace Reader

/-- Reads a reference to a definition of a given kind. -/
def definitionIndex (environment : Environment) (expected : Expectation)
    (space : IndexSpace) : Reader (Nat × Source.Span) :=
  resolved expected (.definition space) (environment.resolve? space)

/-- Reads `( type idx )` behind its head word. -/
def typeOperand (scope : Scope) : Reader Operand := do
  openGroup .typeForm
  let (index, _) ← definitionIndex scope.environment .typeIndex .type
  rightParen
  return .index index

/-- Whether a group of parameters or results comes next. -/
def atSignatureGroup (stream : TokenStream) : Bool :=
  stream.atGroup .paramForm || stream.atGroup .resultForm

/-- Reads the type of an indirect call, if one is written, and skips the
parameters and results behind it. -/
def indirectType (scope : Scope) : Reader (Option Operand) := do
  let operand ← if (← get).atGroup .typeForm then some <$> typeOperand scope else pure none
  let _ ← many atSignatureGroup skipGroup
  return operand

/-- Reads the literal of an `i32.const`.  Numbers from `2 ^ 31` on are
unsigned spellings of negative ones. -/
def word32 : Reader Int := do
  let (value, span) ← integer
  if -0x80000000 ≤ value ∧ value < 0x100000000 then
    return (Int32.ofInt value).toInt
  else
    fail (.constantOutOfRange value) span

/-- Reads the operand that an instruction takes. -/
def operand (scope : Scope) : Keyword → Reader (Option Operand)
  | .call => do
      let (index, _) ← definitionIndex scope.environment .functionIndex .function
      return some (.index index)
  | .localGet | .localSet | .localTee => do
      let (index, _) ← resolved .localIndex .localVariable scope.resolveLocal?
      return some (.index index)
  | .globalGet | .globalSet => do
      let (index, _) ← definitionIndex scope.environment .globalIndex .global
      return some (.index index)
  | .br | .brIf => do
      let (depth, _) ← resolved .label .label scope.resolveLabel?
      return some (.index depth)
  | .callIndirect => indirectType scope
  | .i32Const => do
      return some (.literal (← word32))
  | .i64Const | .f32Const | .f64Const => do
      let (value, _) ← integer
      return some (.literal value)
  | _ => return none

/-- Reads an instruction that is no block, with its operand. -/
def plain (scope : Scope) : Reader Instruction := do
  let token ← current
  match token.kind with
  | .keyword opcode =>
      if opcode.isInstruction && (BlockKind.ofKeyword? opcode).isNone then
        let _ ← advance
        return .plain opcode (← operand scope opcode) token.span
      else
        unexpected .instruction
  | .reserved word => fail (.unknownInstruction word) token.span
  | _ => unexpected .instruction

/-- Reads the label behind an `end`, if there is one.  It must be the label
that opened the block. -/
def closingLabel (opening : Option String) : Reader Unit := do
  let token ← current
  match ← identifier? with
  | some name =>
      if opening = some name then return ()
      else fail (.unexpected (.closingLabel opening) token.kind) token.span
  | none => return ()

mutual

/-- Reads instructions up to a `)`, an `end` or the end of input. -/
def sequence : Nat → Scope → Reader (List Instruction)
  | 0, _ => outOfFuel
  | fuel + 1, scope => do
      if (← current).kind.endsSequence then
        return []
      else
        let first ← instruction fuel scope
        let others ← sequence fuel scope
        return first ++ others

/-- Reads one instruction in flat or folded form.  A folded form gives its
operands too. -/
def instruction : Nat → Scope → Reader (List Instruction)
  | 0, _ => outOfFuel
  | fuel + 1, scope => do
      if (← get).atLeftParen then
        folded fuel scope
      else match (← current).kind.blockKind? with
        | some kind => do
            let (label, block) ← openBlock fuel scope kind
            keyword .blockEnd
            closingLabel label
            return [block]
        | none => do
            return [← plain scope]

/-- Reads a form in parentheses: a block without its `end`, or an instruction
with its operands, which are executed before it. -/
def folded : Nat → Scope → Reader (List Instruction)
  | 0, _ => outOfFuel
  | fuel + 1, scope => do
      leftParen
      match (← current).kind.blockKind? with
      | some kind => do
          let (_, block) ← openBlock fuel scope kind
          rightParen
          return [block]
      | none => do
          let last ← plain scope
          let operands ← foldedOperands fuel scope
          rightParen
          return operands ++ [last]

/-- Reads as many folded forms as come next. -/
def foldedOperands : Nat → Scope → Reader (List Instruction)
  | 0, _ => outOfFuel
  | fuel + 1, scope => do
      if (← get).atLeftParen then
        let first ← folded fuel scope
        let others ← foldedOperands fuel scope
        return first ++ others
      else
        return []

/-- Reads a block from its first word to the end of its body, and gives its
label too.  Result types are read and dropped. -/
def openBlock : Nat → Scope → BlockKind → Reader (Option String × Instruction)
  | 0, _, _ => outOfFuel
  | fuel + 1, scope, kind => do
      let first ← advance
      let label ← identifier?
      let _ ← results
      let body ← sequence fuel (scope.enter label)
      return (label, .structured kind label body first.span)

end

/-- Reads the instructions of a function body.  At most three of the readers
above are entered between one token and the next. -/
def body (environment : Environment) (frame : Frame) : Reader (List Instruction) := do
  sequence (3 * ((← get).ahead.length + 1)) ⟨environment, frame, []⟩

end Reader

end WatMachine
