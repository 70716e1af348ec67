import WatMachine.Grammar.Body
import WatMachine.Proofs.Grammar.Repetition

/-!
# The grammar of function bodies

The language of function bodies, stated over tokens and apart from its
readers: which tokens are derived from `instr*`, and which instructions they
stand for.

    instr  ::= plain | block id? results instr* end id? | folded
    folded ::= ( block id? results instr* ) | ( plain folded* )

Here `block` is `block` or `loop`, `results` is `(result valtype*)*` and a
plain instruction is its keyword with the operand that the keyword takes.  An
`end` may repeat the label of its block.
-/

namespace WatMachine

def TypeWord (tokens : List Token) (type : ValueType) : Prop :=
  ∃ token, tokens = [token] ∧ token.kind = .keyword type.keyword

/-- A group with a given head word around tokens of a language. -/
inductive Group {α : Type} (word : Keyword) (language : List Token → α → Prop) :
    List Token → α → Prop where
  | mk {left head right : Token} {inner : List Token} {value : α}
      (opened : left.kind = .leftParen) (headed : head.kind = .keyword word)
      (within : language inner value) (closed : right.kind = .rightParen) :
      Group word language (left :: head :: inner ++ [right]) value

/-- The groups of result types, `(result valtype*)*`. -/
def ResultGroups : List Token → List (List ValueType) → Prop :=
  Many (Group .resultForm (Many TypeWord))

/-- A group of parameters or results whose contents do not matter. -/
def SkippedGroup (tokens : List Token) (_ : Unit) : Prop :=
  Group .paramForm (fun inner _ => Balanced inner) tokens () ∨
    Group .resultForm (fun inner _ => Balanced inner) tokens ()

/-- The names of the variables of a function, of those that have one. -/
def Frame.names (frame : Frame) : List (Option String) :=
  frame.locals.map (·.name)

def Reference (names : List (Option String)) (tokens : List Token) (index : Nat) : Prop :=
  ∃ token, tokens = [token] ∧ RefersTo names token index

inductive CalledType (scope : Scope) : List Token → Option Operand → Prop where
  | omitted : CalledType scope [] none
  | written {tokens : List Token} {index : Nat}
      (group : Group .typeForm (Reference (scope.environment.names.get .type)) tokens index) :
      CalledType scope tokens (some (.index index))

/-- The operand that an instruction takes behind its keyword.  Definitions,
variables and labels are referred to by their numbers, or by name: to the first
definition or variable of that name, or to the innermost block that has it for
its label. -/
inductive Immediate (scope : Scope) : Keyword → List Token → Option Operand → Prop where
  | call {tokens : List Token} {index : Nat}
      (reference : Reference (scope.environment.names.get .function) tokens index) :
      Immediate scope .call tokens (some (.index index))
  | localVariable {opcode : Keyword} {tokens : List Token} {index : Nat}
      (listed : opcode ∈ [.localGet, .localSet, .localTee])
      (reference : Reference scope.frame.names tokens index) :
      Immediate scope opcode tokens (some (.index index))
  | global {opcode : Keyword} {tokens : List Token} {index : Nat}
      (listed : opcode ∈ [.globalGet, .globalSet])
      (reference : Reference (scope.environment.names.get .global) tokens index) :
      Immediate scope opcode tokens (some (.index index))
  | label {opcode : Keyword} {tokens : List Token} {depth : Nat}
      (listed : opcode ∈ [.br, .brIf]) (reference : Reference scope.labels tokens depth) :
      Immediate scope opcode tokens (some (.index depth))
  | indirect {type groups : List Token} {operand : Option Operand} {skipped : List Unit}
      (called : CalledType scope type operand) (others : Many SkippedGroup groups skipped) :
      Immediate scope .callIndirect (type ++ groups) operand
  | word {token : Token} {value : Int} (kind : token.kind = .integer value)
      (least : -0x80000000 ≤ value) (most : value < 0x100000000) :
      Immediate scope .i32Const [token] (some (.literal (Int32.ofInt value).toInt))
  | literal {opcode : Keyword} {token : Token} {value : Int}
      (listed : opcode ∈ [.i64Const, .f32Const, .f64Const]) (kind : token.kind = .integer value) :
      Immediate scope opcode [token] (some (.literal value))
  | nothing {opcode : Keyword}
      (listed : opcode ∈ [.functionReturn, .nop, .drop, .i32Add, .i32Sub, .i32And, .i32Or,
        .i32Eqz, .i32Eq, .i32LtS, .i32GtU, .i32GeS]) :
      Immediate scope opcode [] none

inductive Plain (scope : Scope) : List Token → Instruction → Prop where
  | mk {word : Token} {opcode : Keyword} {tokens : List Token} {operand : Option Operand}
      (kind : word.kind = .keyword opcode) (immediate : Immediate scope opcode tokens operand) :
      Plain scope (word :: tokens) (.plain opcode operand word.span)

/-- The first words of a block: its keyword, its label and its result types. -/
inductive Opening (kind : BlockKind) : List Token → Option String → Source.Span → Prop where
  | mk {word : Token} {name groups : List Token} {label : Option String}
      {types : List (List ValueType)} (opened : word.kind = .keyword kind.keyword)
      (named : Named name label) (results : ResultGroups groups types) :
      Opening kind (word :: name ++ groups) label word.span

/-- The last words of a block in flat form: `end`, and its label again if it
is repeated. -/
inductive Closing (label : Option String) : List Token → Prop where
  | short {word : Token} (ended : word.kind = .keyword .blockEnd) : Closing label [word]
  | repeated {word name : Token} {text : String} (ended : word.kind = .keyword .blockEnd)
      (named : name.kind = .identifier text) (same : label = some text) :
      Closing label [word, name]

/-- The kinds of phrase that function bodies are made of. -/
inductive Phrase where
  | sequence
  | instruction
  | folded
  /-- The folded operands of an instruction. -/
  | operands
  deriving DecidableEq

/-- Which tokens a phrase is written with, and the instructions that it stands
for.  The operands of a folded instruction come before it. -/
inductive Derives : Phrase → Scope → List Token → List Instruction → Prop where
  | done {scope : Scope} : Derives .sequence scope [] []
  | next {scope : Scope} {first rest : List Token} {code others : List Instruction}
      (instruction : Derives .instruction scope first code)
      (sequence : Derives .sequence scope rest others) :
      Derives .sequence scope (first ++ rest) (code ++ others)
  | plain {scope : Scope} {tokens : List Token} {code : Instruction}
      (plain : Plain scope tokens code) : Derives .instruction scope tokens [code]
  | block {scope : Scope} {kind : BlockKind} {head inner last : List Token}
      {label : Option String} {span : Source.Span} {body : List Instruction}
      (opening : Opening kind head label span)
      (sequence : Derives .sequence { scope with labels := label :: scope.labels } inner body)
      (closing : Closing label last) :
      Derives .instruction scope (head ++ inner ++ last) [.structured kind label body span]
  | folded {scope : Scope} {tokens : List Token} {code : List Instruction}
      (folded : Derives .folded scope tokens code) : Derives .instruction scope tokens code
  | foldedBlock {scope : Scope} {kind : BlockKind} {left right : Token}
      {head inner : List Token} {label : Option String} {span : Source.Span}
      {body : List Instruction} (opened : left.kind = .leftParen)
      (opening : Opening kind head label span)
      (sequence : Derives .sequence { scope with labels := label :: scope.labels } inner body)
      (closed : right.kind = .rightParen) :
      Derives .folded scope (left :: head ++ inner ++ [right])
        [.structured kind label body span]
  | foldedPlain {scope : Scope} {left right : Token} {first rest : List Token}
      {code : Instruction} {operands : List Instruction} (opened : left.kind = .leftParen)
      (plain : Plain scope first code) (others : Derives .operands scope rest operands)
      (closed : right.kind = .rightParen) :
      Derives .folded scope (left :: first ++ rest ++ [right]) (operands ++ [code])
  | noOperand {scope : Scope} : Derives .operands scope [] []
  | operand {scope : Scope} {first rest : List Token} {code others : List Instruction}
      (folded : Derives .folded scope first code)
      (operands : Derives .operands scope rest others) :
      Derives .operands scope (first ++ rest) (code ++ others)

end WatMachine
