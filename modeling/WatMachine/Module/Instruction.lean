import WatMachine.Keyword
import WatMachine.Source.Position

/-!
# Instructions

Names are resolved before instructions are built, so an operand is an index,
a label depth or a literal number.  Blocks and loops hold their bodies.
-/

namespace WatMachine

/-- The immediate operand of a plain instruction. -/
inductive Operand where
  /-- The index of a definition or variable, or the depth of a label. -/
  | index (value : Nat)
  | literal (value : Int)
  deriving Repr, DecidableEq

/-- The two kinds of structured instruction. -/
inductive BlockKind where
  | block
  | loop
  deriving Repr, DecidableEq, Inhabited

/-- One instruction of a function body. -/
inductive Instruction where
  | plain (opcode : Keyword) (operand : Option Operand) (span : Source.Span)
  | structured (kind : BlockKind) (label : Option String)
      (body : List Instruction) (span : Source.Span)
  deriving Repr, Inhabited

namespace BlockKind

/-- The kind of structured instruction that a keyword starts. -/
def ofKeyword? : Keyword → Option BlockKind
  | .block => some block
  | .loop => some loop
  | _ => none

/-- The keyword that starts a structured instruction. -/
def keyword : BlockKind → Keyword
  | block => .block
  | loop => .loop

end BlockKind

end WatMachine
