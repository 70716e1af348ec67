import WatMachine.Grammar.Body
import WatMachine.Grammar.Declarations

/-!
# Module fields

The second pass over a module reads functions, imports and exports and puts
the types of the first pass in their places.  Other fields define nothing
that can be executed: their indices are claimed and their contents skipped.
-/

namespace WatMachine

namespace Builder

/-- Reads `( type idx )` and gives the index and signature of the type. -/
def declaredType : Builder (Nat × Signature) := do
  let declarations ← get
  Reader.openGroup .typeForm
  let (index, span) ← Reader.definitionIndex declarations.environment .typeIndex .type
  match declarations.signatures[index]? with
  | some signature =>
      Reader.rightParen
      return (index, signature)
  | none => Reader.fail (.undefined (.definition .type) (.index index)) span

/-- Reads the type of a function, `( type idx )? param* result*`, and gives
its type index and frame.  A type without parameters and results behind it
supplies them; without a type, a new one is declared. -/
def typeUse : Builder (Nat × Frame) := do
  let declared ←
    if (← getThe TokenStream).atGroup .typeForm then some <$> declaredType else pure none
  let params ← Reader.bindings .paramForm
  let results ← Reader.results
  match declared with
  | some (index, signature) =>
      if params.isEmpty && results.isEmpty then
        return (index, .ofSignature signature)
      else
        return (index, .ofParams params results)
  | none =>
      let frame := Frame.ofParams params results
      let index ← declareType none frame.signature
      return (index, frame)

/-- Reads `( export "name" )` inside a function. -/
def inlineExport : Reader String := do
  Reader.openGroup .exportForm
  let name ← Reader.string
  Reader.rightParen
  return name

/-- Reads `( import "module" "name" )` inside a function. -/
def inlineImport : Reader (String × String) := do
  Reader.openGroup .importForm
  let source ← Reader.string
  let name ← Reader.string
  Reader.rightParen
  return (source, name)

/-- Reads the rest of a function behind its type: its locals and body, or
nothing if it is imported. -/
def functionField (index typeIndex : Nat) (frame : Frame) :
    Option (String × String) → Builder Field
  | some (source, name) => do
      Reader.rightParen
      return .imported ⟨source, name, .function index typeIndex frame⟩
  | none => do
      let locals ← Reader.bindings .localForm
      let frame := { frame with locals := frame.locals ++ locals }
      let body ← Reader.body (← get).environment frame
      Reader.rightParen
      return .function ⟨index, typeIndex, frame, body⟩

/-- Reads a function,
`( func id? ( export "name" )* ( import "m" "n" )? typeuse local* instr* )`.
Its inline exports become fields of their own behind it. -/
def function : Builder (List Field) := do
  Reader.openGroup .funcForm
  let index ← claim .function
  let _ ← Reader.identifier?
  let exportNames ← Reader.many (TokenStream.atGroup .exportForm) inlineExport
  let imported ←
    if (← getThe TokenStream).atGroup .importForm then some <$> inlineImport else pure none
  let (typeIndex, frame) ← typeUse
  let field ← functionField index typeIndex frame imported
  return field :: exportNames.map fun name => .exported ⟨name, .function, index⟩

/-- Reads the kind of definition that an import or export is about. -/
def externalKind (expected : Expectation) : Reader ExternalKind := do
  let (kind, _) ← Reader.accept expected fun kind =>
    kind.keyword?.bind ExternalKind.ofKeyword?
  return kind

/-- Reads `( export "name" ( kind idx ) )`. -/
def exportField : Builder Export := do
  Reader.openGroup .exportForm
  let name ← Reader.string
  Reader.leftParen
  let kind ← externalKind .exportTarget
  let (index, _) ← Reader.definitionIndex (← get).environment .index kind.space
  Reader.rightParen
  Reader.rightParen
  return ⟨name, kind, index⟩

/-- Reads `min max?` of a memory. -/
def limits : Reader Limits := do
  let min ← Reader.natural .memoryLimit
  match (← Reader.current).kind with
  | .integer _ => return ⟨min, some (← Reader.natural .memoryLimit)⟩
  | _ => return ⟨min, none⟩

/-- Reads the inner group of an import behind its head word.  Tables and
globals are skipped. -/
def importTarget (index : Nat) : ExternalKind → Builder ImportTarget
  | .function => do
      let _ ← Reader.identifier?
      let (typeIndex, frame) ← typeUse
      Reader.rightParen
      return .function index typeIndex frame
  | .memory => do
      let _ ← Reader.identifier?
      let limits ← limits
      Reader.rightParen
      return .memory index limits
  | .table => do
      Reader.closeGroup
      return .table index
  | .global => do
      Reader.closeGroup
      return .global index

/-- Reads `( import "module" "name" ( kind … ) )`. -/
def importField : Builder Import := do
  Reader.openGroup .importForm
  let source ← Reader.string
  let name ← Reader.string
  Reader.leftParen
  let kind ← externalKind .importTarget
  let index ← claim kind.space
  let target ← importTarget index kind
  Reader.rightParen
  return ⟨source, name, target⟩

/-- Skips a type field and puts the next pending type in its place. -/
def typeField : Builder TypeDefinition := do
  let declarations ← get
  match declarations.pendingTypes with
  | definition :: pendingTypes =>
      set { declarations with pendingTypes }
      Reader.skipGroup
      return definition
  | [] => Reader.unexpected .declaredType

/-- Skips a field, and claims the index of what it defines. -/
def skippedField (word : Option Keyword) : Builder Unit := do
  match word.bind IndexSpace.ofKeyword? with
  | some space =>
      let _ ← claim space
  | none => pure ()
  Reader.skipGroup

/-- Reads the field at the front of the stream. -/
def field : Builder (List Field) := do
  match ((← getThe TokenStream).nth 1).kind.keyword? with
  | some .funcForm => function
  | some .exportForm => return [.exported (← exportField)]
  | some .importForm => return [.imported (← importField)]
  | some .typeForm => return [.type (← typeField)]
  | word =>
      skippedField word
      return []

/-- Reads all fields that come next. -/
def fields : Nat → Builder (List Field)
  | 0 => Reader.outOfFuel
  | fuel + 1 => do
      if (← getThe TokenStream).atLeftParen then
        let first ← field
        let others ← fields fuel
        return first ++ others
      else
        return []

end Builder

end WatMachine
