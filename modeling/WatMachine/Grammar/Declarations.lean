import WatMachine.Grammar.Signature
import WatMachine.Module.Basic

/-!
# Declaring definitions before they are read

References may point forward, so all definitions are declared in a first
pass over the fields of a module.  That pass gives every definition its index
and reads the type definitions in full; the second pass hands the indices out
again in the same order.

Indices have no bound.  Counters of 32 bits give the same ones only to a module
that has fewer than `2 ^ 32` definitions in each of its index spaces.
-/

namespace WatMachine

/-- What is known about the definitions of a module while it is read. -/
structure Declarations where
  environment : Environment
  /-- The signature of every type index so far. -/
  signatures : List Signature
  /-- Type definitions that the second pass has not met yet. -/
  pendingTypes : List TypeDefinition
  /-- How many indices of each space the second pass has handed out. -/
  claimed : PerSpace Nat
  deriving Repr, DecidableEq

/-- A reader that keeps track of definitions. -/
abbrev Builder (α : Type) := StateT Declarations Reader α

namespace Declarations

/-- Nothing declared. -/
def empty : Declarations := ⟨.empty, [], [], .constant 0⟩

/-- Declares one more definition. -/
def declare (declarations : Declarations) (space : IndexSpace)
    (name : Option String) : Declarations :=
  { declarations with environment := declarations.environment.declare space name }

/-- Declares one more type with its signature. -/
def declareType (declarations : Declarations) (name : Option String)
    (signature : Signature) : Declarations :=
  { declarations.declare .type name with
    signatures := declarations.signatures ++ [signature] }

end Declarations

namespace IndexSpace

/-- The index space of the definitions that a head word makes, types
excepted. -/
def ofKeyword? : Keyword → Option IndexSpace
  | .funcForm => some function
  | .tableForm => some table
  | .memoryForm => some memory
  | .globalForm => some global
  | .elemForm => some element
  | .dataForm => some data
  | _ => none

end IndexSpace

namespace TokenStream

/-- The space and name of the definition that the field at the front of a
stream makes.  The kind and name of an import stand behind its two strings,
in the inner group. -/
def definition? (stream : TokenStream) : Option (IndexSpace × Option String) := do
  let word ← (stream.nth 1).kind.keyword?
  if word = .importForm then
    let space ← (stream.nth 5).kind.keyword?.bind IndexSpace.ofKeyword?
    return (space, (stream.nth 6).kind.identifier?)
  else
    let space ← IndexSpace.ofKeyword? word
    return (space, (stream.nth 2).kind.identifier?)

end TokenStream

namespace Builder

/-- The next index of a space in the second pass. -/
def claim (space : IndexSpace) : Builder Nat := do
  let declarations ← get
  let index := declarations.claimed.get space
  set { declarations with claimed := declarations.claimed.set space (index + 1) }
  return index

/-- Declares a type and gives its index. -/
def declareType (name : Option String) (signature : Signature) : Builder Nat := do
  let declarations ← get
  set (declarations.declareType name signature)
  return declarations.environment.size .type

/-- Reads and declares a type: `( type id? ( func param* result* ) )`. -/
def typeDefinition : Builder TypeDefinition := do
  Reader.openGroup .typeForm
  let name ← Reader.identifier?
  Reader.openGroup .funcForm
  let params ← Reader.bindings .paramForm
  let results ← Reader.results
  Reader.rightParen
  Reader.rightParen
  let signature : Signature := ⟨params.map (·.type), results⟩
  let index ← declareType name signature
  return ⟨index, signature⟩

/-- Declares what the field at the front of the stream defines, and moves
behind it. -/
def declareField : Builder Unit := do
  let stream ← getThe TokenStream
  if stream.atGroup .typeForm then
    let definition ← typeDefinition
    modify fun declarations =>
      { declarations with pendingTypes := declarations.pendingTypes ++ [definition] }
  else
    match stream.definition? with
    | some (space, name) => modify (·.declare space name)
    | none => pure ()
    Reader.skipGroup

/-- Declares the definitions of all fields that come next. -/
def declareFields : Nat → Builder Unit
  | 0 => Reader.outOfFuel
  | fuel + 1 => do
      if (← getThe TokenStream).atLeftParen then
        declareField
        declareFields fuel

/-- The first pass over the fields of a module, which leaves the stream where
it was. -/
def declareAll : Builder Unit := do
  let start ← getThe TokenStream
  declareFields (start.ahead.length + 1)
  set start

end Builder

end WatMachine
