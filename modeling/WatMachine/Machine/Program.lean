import WatMachine.Machine.RuntimeError
import WatMachine.Module.Basic

/-!
# Programs

A program is a module made ready to be called: its functions by index, its
exports by name and the number of calls that may be active at once.
-/

namespace WatMachine

/-- What a function index stands for. -/
inductive Callee where
  | defined (function : FunctionDefinition)
  | imported (declaration : Import) (frame : Frame)
  deriving Repr

/-- A module made ready to be called. -/
structure Program where
  module : Module
  maxCallDepth : Nat
  /-- The functions by index; of two entries for an index the first counts. -/
  functions : List (Nat × Callee)
  /-- The exports; of two with one name the first counts. -/
  exports : List Export
  deriving Repr

namespace Callee

/-- The frame that a call starts from. -/
def frame : Callee → Frame
  | defined function => function.frame
  | imported _ frame => frame

end Callee

namespace Import

/-- The entry that an imported function makes among the functions. -/
def callee? (declaration : Import) : Option (Nat × Callee) :=
  match declaration.target with
  | .function index _ frame => some (index, .imported declaration frame)
  | _ => none

end Import

namespace Program

/-- The number of calls that may be active at once unless a limit is given. -/
def defaultMaxCallDepth : Nat := 1000

/-- Makes a module ready.  A later function takes the place of an earlier one
of the same index, and an imported function that of a defined one. -/
def ofModule (module : Module) (maxCallDepth : Nat) : Program where
  module := module
  maxCallDepth := maxCallDepth
  functions :=
    (module.functions.map (fun function => (function.index, Callee.defined function)) ++
      module.imports.filterMap Import.callee?).reverse
  exports := module.exports

/-- What a function index stands for. -/
def callee? (program : Program) (index : Nat) : Option Callee :=
  program.functions.lookup index

/-- The export of a given name. -/
def export? (program : Program) (name : String) : Option Export :=
  program.exports.find? (·.name == name)

/-- What a function index stands for, or the error that it stands for
nothing. -/
def callee (program : Program) (index : Nat) : Except RuntimeError Callee :=
  match program.callee? index with
  | some callee => .ok callee
  | none => .error (.unknownFunction index)

/-- The function to be executed for an index.  Imported functions cannot be
executed. -/
def definition (program : Program) (index : Nat) :
    Except RuntimeError FunctionDefinition := do
  match ← program.callee index with
  | .defined function => return function
  | .imported declaration _ =>
      throw (.unlinkedImport declaration.source declaration.name)

end Program

end WatMachine
