import WatMachine.Grammar.Reader

/-!
# Parameters, locals and results

Parameters and locals share one grammar of bindings: a group either names one
variable or lists the types of any number of nameless ones.  Result groups list types
only.  Groups may repeat, and their contents run together.
-/

namespace WatMachine

namespace Reader

/-- Reads as many value types as come next. -/
def valueTypes : Reader (List ValueType) :=
  many TokenStream.atValueType valueType

/-- Whether the inside of a group is a list of two or more types. -/
def atAbbreviation (stream : TokenStream) : Bool :=
  stream.atValueType && (stream.nth 1).kind.isValueType

/-- Reads the inside of a group of bindings: `valtype valtype+`, or
`id? valtype?` with the type required behind a name. -/
def groupBindings : Reader (List LocalVariable) := do
  if atAbbreviation (← get) then
    return (← valueTypes).map .anonymous
  else
    let name ← identifier?
    if name.isSome || (← get).atValueType then
      let type ← valueType
      return [{ type, name }]
    else
      return []

/-- Reads one group of bindings with its parentheses. -/
def bindingGroup (word : Keyword) : Reader (List LocalVariable) := do
  openGroup word
  let bindings ← groupBindings
  rightParen
  return bindings

/-- Reads the groups of bindings with a given head word, such as
`(param i32 i32) (param $x i32)`. -/
def bindings (word : Keyword) : Reader (List LocalVariable) := do
  return (← many (TokenStream.atGroup word) (bindingGroup word)).flatten

/-- Reads one group of result types. -/
def resultGroup : Reader (List ValueType) := do
  openGroup .resultForm
  let types ← valueTypes
  rightParen
  return types

/-- Reads `( result valtype* )*`. -/
def results : Reader (List ValueType) := do
  return (← many (TokenStream.atGroup .resultForm) resultGroup).flatten

end Reader

end WatMachine
