import WatMachine.Proofs.Grammar.Fields
import WatMachine.Proofs.Grammar.Readings
import WatMachine.Proofs.Grammar.Signatures

/-!
# The grammar of module fields

The language of the fields of a module, stated over tokens and apart from its
readers, with the references that the tokens make.

    field   ::= ( func id? (export "n")* (import "m" "n")? typeuse local* instr* )
              | ( import "m" "n" ( kind … ) ) | ( export "n" ( kind x ) )
              | ( type … ) | ( … )
    typeuse ::= ( type x )? param* result*

A field is written among the declarations of its module, some of which it
adds to.  An imported function has no locals and no body.
-/

namespace WatMachine

open Reading

namespace Declarations

/-- One more index of a space is handed out. -/
def claim (declarations : Declarations) (space : IndexSpace) : Declarations :=
  { declarations with
    claimed := declarations.claimed.set space (declarations.claimed.get space + 1) }

end Declarations

def StringWord (tokens : List Token) (value : String) : Prop :=
  ∃ token, tokens = [token] ∧ token.kind = .string value

def StringPair (tokens : List Token) (values : String × String) : Prop :=
  ∃ first second, tokens = [first, second] ∧ first.kind = .string values.1 ∧
    second.kind = .string values.2

/-- The frame of a function that names a type, with the parameters and results
that it repeats. -/
def Frame.ofTypeUse (signature : Signature) (params : List LocalVariable)
    (results : List ValueType) : Frame :=
  if params.isEmpty && results.isEmpty then .ofSignature signature else .ofParams params results

/-- The type of a function. -/
inductive TypeUse (before : Declarations) :
    List Reading → Nat × Frame → Declarations → Prop where
  | declared {type : List Reading} {index : Nat} {signature : Signature}
      {params results : List Token} {locals : List (List LocalVariable)}
      {types : List (List ValueType)}
      (reference : TypeReference (before.environment.names.get .type) type index)
      (found : before.signatures[index]? = some signature)
      (bound : BindingGroups .paramForm params locals) (given : ResultGroups results types) :
      TypeUse before (type ++ others (params ++ results))
        (index, .ofTypeUse signature locals.flatten types.flatten) before
  | inline {params results : List Token} {locals : List (List LocalVariable)}
      {types : List (List ValueType)} (bound : BindingGroups .paramForm params locals)
      (given : ResultGroups results types) :
      TypeUse before (others (params ++ results))
        (before.environment.size .type, .ofParams locals.flatten types.flatten)
        (before.declareType none (Frame.ofParams locals.flatten types.flatten).signature)

inductive InlineImport : List Token → Option (String × String) → Prop where
  | omitted : InlineImport [] none
  | written {tokens : List Token} {names : String × String}
      (group : Group .importForm StringPair tokens names) : InlineImport tokens (some names)

/-- What follows the type of a function up to its closing parenthesis. -/
inductive FunctionTail (environment : Environment) (index typeIndex : Nat) (frame : Frame) :
    Option (String × String) → List Reading → Field → Prop where
  | imported {source name : String} :
      FunctionTail environment index typeIndex frame (some (source, name)) []
        (.imported ⟨source, name, .function index typeIndex frame⟩)
  | defined {groups : List Token} {locals : List (List LocalVariable)} {body : List Reading}
      {code : List Instruction} (bound : BindingGroups .localForm groups locals)
      (read : PhraseRead .sequence
        ⟨environment, { frame with locals := frame.locals ++ locals.flatten }, []⟩ body code) :
      FunctionTail environment index typeIndex frame none (others groups ++ body)
        (.function ⟨index, typeIndex,
          { frame with locals := frame.locals ++ locals.flatten }, code⟩)

/-- A function, with its name and the fields that it makes. -/
inductive FunctionWritten (before : Declarations) :
    List Reading → Option String → List Field → Declarations → Prop where
  | mk {left head right : Token} {name exports imported : List Token} {label : Option String}
      {names : List String} {source : Option (String × String)} {type tail : List Reading}
      {typeIndex : Nat} {frame : Frame} {field : Field} {after : Declarations}
      (opened : left.kind = .leftParen) (headed : head.kind = .keyword .funcForm)
      (named : Named name label) (exported : Many (Group .exportForm StringWord) exports names)
      (importing : InlineImport imported source)
      (typed : TypeUse (before.claim .function) type (typeIndex, frame) after)
      (followed : FunctionTail after.environment (before.claimed.get .function) typeIndex frame
        source tail field)
      (closed : right.kind = .rightParen) :
      FunctionWritten before
        (others (left :: head :: name ++ exports ++ imported) ++ type ++ tail ++ others [right])
        label
        (field :: names.map fun name =>
          .exported ⟨name, .function, before.claimed.get .function⟩)
        after

inductive LimitsWritten : List Token → Limits → Prop where
  | least {token : Token} {min : Nat} (number : Reader.naturalValue? token.kind = some min) :
      LimitsWritten [token] ⟨min, none⟩
  | both {first second : Token} {min max : Nat}
      (number : Reader.naturalValue? first.kind = some min)
      (other : Reader.naturalValue? second.kind = some max) :
      LimitsWritten [first, second] ⟨min, some max⟩

/-- The inside of the inner group of an import, with the name in it where it
is read. -/
inductive ImportTargetWritten (before : Declarations) (index : Nat) :
    ExternalKind → List Reading → ImportTarget → Declarations → Prop where
  | function {name : List Token} {label : Option String} {type : List Reading} {typeIndex : Nat}
      {frame : Frame} {after : Declarations} (named : Named name label)
      (typed : TypeUse before type (typeIndex, frame) after) :
      ImportTargetWritten before index .function (others name ++ type)
        (.function index typeIndex frame) after
  | memory {name numbers : List Token} {label : Option String} {limits : Limits}
      (named : Named name label) (limited : LimitsWritten numbers limits) :
      ImportTargetWritten before index .memory (others (name ++ numbers)) (.memory index limits)
        before
  | table {inner : List Token} (balanced : Balanced inner) :
      ImportTargetWritten before index .table (others inner) (.table index) before
  | global {inner : List Token} (balanced : Balanced inner) :
      ImportTargetWritten before index .global (others inner) (.global index) before

/-- A field, with the parts of the module that it makes. -/
inductive FieldWritten (before : Declarations) :
    List Reading → List Field → Declarations → Prop where
  | function {readings : List Reading} {label : Option String} {part : List Field}
      {after : Declarations} (written : FunctionWritten before readings label part after) :
      FieldWritten before readings part after
  | exported {left head text opening word token closing right : Token} {name : String}
      {keyword : Keyword} {kind : ExternalKind} {index : Nat} (opened : left.kind = .leftParen)
      (headed : head.kind = .keyword .exportForm) (named : text.kind = .string name)
      (opens : opening.kind = .leftParen) (described : word.kind = .keyword keyword)
      (isKind : ExternalKind.ofKeyword? keyword = some kind)
      (refers : RefersTo (before.environment.names.get kind.space) token index)
      (closes : closing.kind = .rightParen) (closed : right.kind = .rightParen) :
      FieldWritten before
        (others [left, head, text, opening, word] ++ [⟨token, some index⟩] ++
          others [closing, right])
        [.exported ⟨name, kind, index⟩] before
  | imported {left head first second opening word closing right : Token} {source name : String}
      {keyword : Keyword} {kind : ExternalKind} {inner : List Reading} {target : ImportTarget}
      {after : Declarations} (opened : left.kind = .leftParen)
      (headed : head.kind = .keyword .importForm) (sourced : first.kind = .string source)
      (named : second.kind = .string name) (opens : opening.kind = .leftParen)
      (described : word.kind = .keyword keyword)
      (isKind : ExternalKind.ofKeyword? keyword = some kind)
      (targeted : ImportTargetWritten (before.claim kind.space)
        (before.claimed.get kind.space) kind inner target after)
      (closes : closing.kind = .rightParen) (closed : right.kind = .rightParen) :
      FieldWritten before
        (others [left, head, first, second, opening, word] ++ inner ++ others [closing, right])
        [.imported ⟨source, name, target⟩] after
  | type {group : List Token} {definition : TypeDefinition} {pendingTypes : List TypeDefinition}
      (isGroup : IsGroup group) (headed : headWord? group = some .typeForm)
      (pending : before.pendingTypes = definition :: pendingTypes) :
      FieldWritten before (others group) [.type definition] { before with pendingTypes }
  | skipped {group : List Token} (isGroup : IsGroup group)
      (other : headWord? group ∉
        [some .funcForm, some .exportForm, some .importForm, some .typeForm]) :
      FieldWritten before (others group) []
        (match (headWord? group).bind IndexSpace.ofKeyword? with
          | some space => before.claim space
          | none => before)

end WatMachine
