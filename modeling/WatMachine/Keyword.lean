/-!
# Keywords of the text format

The fixed table of words that have a meaning of their own.  A word is a
keyword exactly when it is spelled as in the table; other words of the same
shape stay reserved.
-/

namespace WatMachine

/-- The words of the keyword table.  Those that head a parenthesised form end
in `Form`, those that name a type in `Type`, and the rest are instructions or
delimit them. -/
inductive Keyword where
  | moduleForm
  | i32Type
  | i64Type
  | f32Type
  | f64Type
  | funcrefType
  | externrefType
  | funcForm
  | externForm
  | localForm
  | paramForm
  | resultForm
  | call
  | callIndirect
  | importForm
  | exportForm
  | tableForm
  | memoryForm
  | globalForm
  | elemForm
  | dataForm
  | typeForm
  | mutForm
  | localGet
  | localSet
  | localTee
  | globalGet
  | globalSet
  | ifStart
  | elseStart
  | blockEnd
  | block
  | loop
  | br
  | brIf
  | functionReturn
  | nop
  | drop
  | i32Const
  | i64Const
  | f32Const
  | f64Const
  | i32Add
  | i32Sub
  | i32And
  | i32Or
  | i32Eqz
  | i32Eq
  | i32LtS
  | i32GtU
  | i32GeS
  deriving Repr, DecidableEq, Inhabited

namespace Keyword

/-- Every keyword, in table order. -/
def all : List Keyword :=
  [moduleForm, i32Type, i64Type, f32Type, f64Type, funcrefType, externrefType,
    funcForm, externForm, localForm, paramForm, resultForm, call, callIndirect,
    importForm, exportForm, tableForm, memoryForm, globalForm, elemForm,
    dataForm, typeForm, mutForm, localGet, localSet, localTee, globalGet,
    globalSet, ifStart, elseStart, blockEnd, block, loop, br, brIf, functionReturn,
    nop, drop, i32Const, i64Const, f32Const, f64Const, i32Add, i32Sub, i32And,
    i32Or, i32Eqz, i32Eq, i32LtS, i32GtU, i32GeS]

/-- The exact source spelling of a keyword. -/
def spelling : Keyword → String
  | moduleForm => "module"
  | i32Type => "i32"
  | i64Type => "i64"
  | f32Type => "f32"
  | f64Type => "f64"
  | funcrefType => "funcref"
  | externrefType => "externref"
  | funcForm => "func"
  | externForm => "extern"
  | localForm => "local"
  | paramForm => "param"
  | resultForm => "result"
  | call => "call"
  | callIndirect => "call_indirect"
  | importForm => "import"
  | exportForm => "export"
  | tableForm => "table"
  | memoryForm => "memory"
  | globalForm => "global"
  | elemForm => "elem"
  | dataForm => "data"
  | typeForm => "type"
  | mutForm => "mut"
  | localGet => "local.get"
  | localSet => "local.set"
  | localTee => "local.tee"
  | globalGet => "global.get"
  | globalSet => "global.set"
  | ifStart => "if"
  | elseStart => "else"
  | blockEnd => "end"
  | block => "block"
  | loop => "loop"
  | br => "br"
  | brIf => "br_if"
  | functionReturn => "return"
  | nop => "nop"
  | drop => "drop"
  | i32Const => "i32.const"
  | i64Const => "i64.const"
  | f32Const => "f32.const"
  | f64Const => "f64.const"
  | i32Add => "i32.add"
  | i32Sub => "i32.sub"
  | i32And => "i32.and"
  | i32Or => "i32.or"
  | i32Eqz => "i32.eqz"
  | i32Eq => "i32.eq"
  | i32LtS => "i32.lt_s"
  | i32GtU => "i32.gt_u"
  | i32GeS => "i32.ge_s"

/-- The keyword with a given spelling. -/
def ofSpelling? (word : String) : Option Keyword :=
  all.find? fun keyword => keyword.spelling == word

/-- Whether a keyword names a value type. -/
def isValueType : Keyword → Bool
  | i32Type | i64Type | f32Type | f64Type => true
  | _ => false

/-- Whether a keyword may stand as an instruction in a function body.  The
words that delimit a structured instruction may not. -/
def isInstruction : Keyword → Bool
  | localGet | localSet | localTee | globalGet | globalSet | call
  | callIndirect | block | loop | br | brIf | functionReturn | nop | drop
  | i32Const | i64Const | f32Const | f64Const | i32Add | i32Sub | i32And
  | i32Or | i32Eqz | i32Eq | i32LtS | i32GtU | i32GeS => true
  | _ => false

theorem mem_all (keyword : Keyword) : keyword ∈ all := by
  cases keyword <;> decide

end Keyword

end WatMachine
