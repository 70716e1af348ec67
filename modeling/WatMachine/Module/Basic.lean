import WatMachine.Environment
import WatMachine.Module.Frame
import WatMachine.Module.Instruction

/-!
# Modules

A module is the list of its fields in source order, with the environment of
names that its source declared.
-/

namespace WatMachine

/-- The kinds of definition that modules share with each other. -/
inductive ExternalKind where
  | function
  | table
  | memory
  | global
  deriving Repr, DecidableEq, Inhabited

/-- A function defined in the module. -/
structure FunctionDefinition where
  index : Nat
  typeIndex : Nat
  frame : Frame
  body : List Instruction
  deriving Repr, Inhabited

/-- The number of pages that a memory has at least and at most. -/
structure Limits where
  min : Nat
  max : Option Nat
  deriving Repr, DecidableEq, Inhabited

/-- What an import stands for. -/
inductive ImportTarget where
  | function (index typeIndex : Nat) (frame : Frame)
  | memory (index : Nat) (limits : Limits)
  | table (index : Nat)
  | global (index : Nat)
  deriving Repr, DecidableEq, Inhabited

/-- Something that another module is to supply. -/
structure Import where
  source : String
  name : String
  target : ImportTarget
  deriving Repr, DecidableEq, Inhabited

/-- A definition made visible under a name. -/
structure Export where
  name : String
  kind : ExternalKind
  index : Nat
  deriving Repr, DecidableEq, Inhabited

/-- A signature defined at a type index. -/
structure TypeDefinition where
  index : Nat
  signature : Signature
  deriving Repr, DecidableEq, Inhabited

/-- One field of a module. -/
inductive Field where
  | function (definition : FunctionDefinition)
  | imported (declaration : Import)
  | exported (declaration : Export)
  | type (definition : TypeDefinition)
  deriving Repr, Inhabited

/-- A module: its name, its fields in order and the names it declares. -/
structure Module where
  id : Option String
  fields : List Field
  environment : Environment
  deriving Repr

namespace ExternalKind

/-- The kind of definition that a keyword names. -/
def ofKeyword? : Keyword → Option ExternalKind
  | .funcForm => some function
  | .tableForm => some table
  | .memoryForm => some memory
  | .globalForm => some global
  | _ => none

/-- The index space of the definitions of a kind. -/
def space : ExternalKind → IndexSpace
  | function => .function
  | table => .table
  | memory => .memory
  | global => .global

end ExternalKind

namespace Field

/-- The function that a field defines. -/
def function? : Field → Option FunctionDefinition
  | function definition => some definition
  | _ => none

/-- The import that a field declares. -/
def imported? : Field → Option Import
  | imported declaration => some declaration
  | _ => none

/-- The export that a field declares. -/
def exported? : Field → Option Export
  | exported declaration => some declaration
  | _ => none

/-- The type that a field defines. -/
def type? : Field → Option TypeDefinition
  | type definition => some definition
  | _ => none

end Field

namespace Module

/-- The functions defined in a module. -/
def functions (module : Module) : List FunctionDefinition :=
  module.fields.filterMap Field.function?

/-- The imports of a module. -/
def imports (module : Module) : List Import :=
  module.fields.filterMap Field.imported?

/-- The exports of a module. -/
def exports (module : Module) : List Export :=
  module.fields.filterMap Field.exported?

/-- The types defined in a module. -/
def types (module : Module) : List TypeDefinition :=
  module.fields.filterMap Field.type?

/-- The name of a function for people to read, or its index if it has none. -/
def functionName (module : Module) (index : Nat) : String :=
  match module.environment.name? .function index with
  | some name => "$" ++ name
  | none => toString index

end Module

end WatMachine
