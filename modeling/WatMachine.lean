import WatMachine.CommandLine.Arguments
import WatMachine.CommandLine.Directory
import WatMachine.CommandLine.Report
import WatMachine.Environment
import WatMachine.Grammar.Body
import WatMachine.Grammar.Declarations
import WatMachine.Grammar.Field
import WatMachine.Grammar.Module
import WatMachine.Grammar.ParseError
import WatMachine.Grammar.Reader
import WatMachine.Grammar.Signature
import WatMachine.Keyword
import WatMachine.Machine.Execution
import WatMachine.Machine.Operation
import WatMachine.Machine.Program
import WatMachine.Machine.RuntimeError
import WatMachine.Machine.Session
import WatMachine.Machine.Stack
import WatMachine.Main
import WatMachine.Module.Basic
import WatMachine.Module.Frame
import WatMachine.Module.Instruction
import WatMachine.Proofs.Grammar.Advance
import WatMachine.Proofs.Grammar.Balance
import WatMachine.Proofs.Grammar.Bindings
import WatMachine.Proofs.Grammar.Blame
import WatMachine.Proofs.Grammar.BlamedModules
import WatMachine.Proofs.Grammar.Bodies
import WatMachine.Proofs.Grammar.Declared
import WatMachine.Proofs.Grammar.EndOfInput
import WatMachine.Proofs.Grammar.Extents
import WatMachine.Proofs.Grammar.FieldPhrases
import WatMachine.Proofs.Grammar.FieldReaders
import WatMachine.Proofs.Grammar.Fields
import WatMachine.Proofs.Grammar.Flattening
import WatMachine.Proofs.Grammar.FoldedForms
import WatMachine.Proofs.Grammar.Forms
import WatMachine.Proofs.Grammar.FunctionFields
import WatMachine.Proofs.Grammar.FunctionReaders
import WatMachine.Proofs.Grammar.FunctionTexts
import WatMachine.Proofs.Grammar.Indices
import WatMachine.Proofs.Grammar.KindsAlone
import WatMachine.Proofs.Grammar.ModuleReaders
import WatMachine.Proofs.Grammar.NamedReferences
import WatMachine.Proofs.Grammar.Numbering
import WatMachine.Proofs.Grammar.Operands
import WatMachine.Proofs.Grammar.Passes
import WatMachine.Proofs.Grammar.Phrases
import WatMachine.Proofs.Grammar.Progress
import WatMachine.Proofs.Grammar.Readers
import WatMachine.Proofs.Grammar.Readings
import WatMachine.Proofs.Grammar.References
import WatMachine.Proofs.Grammar.RelocatedModules
import WatMachine.Proofs.Grammar.Relocation
import WatMachine.Proofs.Grammar.Repetition
import WatMachine.Proofs.Grammar.Signatures
import WatMachine.Proofs.Grammar.TypeIndices
import WatMachine.Proofs.Grammar.TypeTable
import WatMachine.Proofs.Grammar.Written
import WatMachine.Proofs.Machine.AcceptedCode
import WatMachine.Proofs.Machine.CallFrame
import WatMachine.Proofs.Machine.Complaints
import WatMachine.Proofs.Machine.Constants
import WatMachine.Proofs.Machine.DepthLimit
import WatMachine.Proofs.Machine.Endings
import WatMachine.Proofs.Machine.Evaluation
import WatMachine.Proofs.Machine.Exports
import WatMachine.Proofs.Machine.FrameShape
import WatMachine.Proofs.Machine.FunctionTable
import WatMachine.Proofs.Machine.Isolation
import WatMachine.Proofs.Machine.Layout
import WatMachine.Proofs.Machine.LocalErrors
import WatMachine.Proofs.Machine.Meanings
import WatMachine.Proofs.Machine.Moments
import WatMachine.Proofs.Machine.NamesAndTypes
import WatMachine.Proofs.Machine.Operations
import WatMachine.Proofs.Machine.Positions
import WatMachine.Proofs.Machine.Refinement
import WatMachine.Proofs.Machine.Resemblance
import WatMachine.Proofs.Machine.StackShape
import WatMachine.Proofs.Machine.Steps
import WatMachine.Proofs.Machine.Termination
import WatMachine.Proofs.Machine.Unwinding
import WatMachine.Proofs.Token.Concatenation
import WatMachine.Proofs.Token.Gaps
import WatMachine.Proofs.Token.Items
import WatMachine.Proofs.Token.Layouts
import WatMachine.Proofs.Token.Lexemes
import WatMachine.Proofs.Token.Numerals
import WatMachine.Proofs.Token.Places
import WatMachine.Proofs.Token.Spelling
import WatMachine.Proofs.Token.Tiling
import WatMachine.Run
import WatMachine.Source.Position
import WatMachine.Text.Escaped
import WatMachine.Text.JsonValue
import WatMachine.Text.Quoted
import WatMachine.Token
import WatMachine.Token.LexError
import WatMachine.Token.Lexer
import WatMachine.Token.Listing
