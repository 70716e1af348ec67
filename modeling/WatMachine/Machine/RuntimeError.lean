import WatMachine.Keyword

/-!
# Errors at run time
-/

namespace WatMachine

/-- How a stack can differ from what its markers promise. -/
inductive StackFault where
  | labelExpected
  | activationExpected
  | activationMissing
  | loopLabelMissing
  deriving Repr, DecidableEq

/-- Why a call fails. -/
inductive RuntimeError where
  | stackUnderflow
  | arityMismatch (expected found : Nat)
  | unknownFunction (index : Nat)
  | unknownExport (name : String)
  | exportNotFunction (name : String)
  | unlinkedImport (source name : String)
  | localOutOfBounds (index : Nat)
  | unimplementedInstruction (opcode : Keyword)
  | missingOperand (opcode : Keyword)
  | invalidLabel (depth : Nat)
  | callStackOverflow (limit : Nat)
  | corruptStack (fault : StackFault)
  deriving Repr, DecidableEq

namespace StackFault

/-- How messages describe a broken stack. -/
def describe : StackFault → String
  | labelExpected => "expected a label marker"
  | activationExpected => "expected an activation marker"
  | activationMissing => "no activation at frame base"
  | loopLabelMissing => "loop label missing after branch"

end StackFault

namespace RuntimeError

/-- The message of an error at run time. -/
def message : RuntimeError → String
  | stackUnderflow => "Stack underflow"
  | arityMismatch expected found =>
      "Arity mismatch: expected " ++ toString expected ++ " values, found " ++ toString found
  | unknownFunction index => "Unknown function: " ++ toString index
  | unknownExport name => "Unknown export: " ++ name
  | exportNotFunction name => "Export is not a function: " ++ name
  | unlinkedImport source name => "Unlinked import: " ++ source ++ "." ++ name
  | localOutOfBounds index =>
      "Local variable index out of bounds: " ++ toString index
  | unimplementedInstruction opcode =>
      "Unimplemented instruction: " ++ opcode.spelling
  | missingOperand opcode => "Missing operand for " ++ opcode.spelling
  | invalidLabel depth => "Invalid label: " ++ toString depth
  | callStackOverflow limit =>
      "Call stack overflow: depth limit " ++ toString limit ++ " reached"
  | corruptStack fault => "Corrupt stack: " ++ fault.describe

end RuntimeError

end WatMachine
