import WatMachine.Proofs.Grammar.Phrases
import WatMachine.Proofs.Grammar.Written

/-!
# What references mean

Every plain instruction in a function body, however deep it is nested, stands
for adjacent tokens of the body, with its operand read in the scope of the whole
body.  A name in it means the first definition of that name.
-/

namespace WatMachine

/-- Whether an instruction occurs in a body, possibly inside other
instructions. -/
inductive Occurs (instruction : Instruction) : List Instruction → Prop where
  | here {code : List Instruction} (member : instruction ∈ code) : Occurs instruction code
  | inside {code body : List Instruction} {kind : BlockKind} {label : Option String}
      {span : Source.Span} (member : .structured kind label body span ∈ code)
      (occurs : Occurs instruction body) : Occurs instruction code

namespace Occurs

theorem append {instruction : Instruction} {code others : List Instruction}
    (occurs : Occurs instruction (code ++ others)) :
    Occurs instruction code ∨ Occurs instruction others := by
  cases occurs with
  | here member =>
      rcases List.mem_append.mp member with member | member
      · exact .inl (.here member)
      · exact .inr (.here member)
  | inside member occurs =>
      rcases List.mem_append.mp member with member | member
      · exact .inl (.inside member occurs)
      · exact .inr (.inside member occurs)

theorem mono {instruction : Instruction} {code more : List Instruction}
    (occurs : Occurs instruction code) (found : code ⊆ more) : Occurs instruction more := by
  cases occurs with
  | here member => exact .here (found member)
  | inside member occurs => exact .inside (found member) occurs

theorem eq_of_singleton_plain {instruction : Instruction} {opcode : Keyword}
    {operand : Option Operand} {span : Source.Span}
    (occurs : Occurs instruction [.plain opcode operand span]) :
    instruction = .plain opcode operand span := by
  cases occurs with
  | here member => exact List.mem_singleton.mp member
  | inside member => cases List.mem_singleton.mp member

theorem of_singleton_structured {opcode : Keyword} {operand : Option Operand}
    {span place : Source.Span} {kind : BlockKind} {label : Option String}
    {body : List Instruction}
    (occurs : Occurs (.plain opcode operand span) [.structured kind label body place]) :
    Occurs (.plain opcode operand span) body := by
  cases occurs with
  | here member => cases List.mem_singleton.mp member
  | inside member occurs =>
      cases List.mem_singleton.mp member
      exact occurs

end Occurs

/-- Whether a plain instruction is written among tokens, with its operand read
in an environment. -/
def PlainRead (environment : Environment) (tokens : List Token) (opcode : Keyword)
    (operand : Option Operand) (span : Source.Span) : Prop :=
  ∃ (scope : Scope) (word : Token) (immediate : List Token),
    scope.environment = environment ∧ word :: immediate <:+: tokens ∧
      word.kind = .keyword opcode ∧ word.span = span ∧ Immediate scope opcode immediate operand

section Occurrences

variable {environment : Environment} {tokens : List Token} {opcode : Keyword}
  {operand : Option Operand} {span : Source.Span}

theorem PlainRead.mono {more : List Token}
    (read : PlainRead environment tokens opcode operand span) (found : tokens <:+: more) :
    PlainRead environment more opcode operand span := by
  obtain ⟨scope, word, immediate, same, adjacent, kind, place, isImmediate⟩ := read
  exact ⟨scope, word, immediate, same, adjacent.trans found, kind, place, isImmediate⟩

theorem Plain.read {scope : Scope} {code : Instruction} (isPlain : Plain scope tokens code)
    (occurs : Occurs (.plain opcode operand span) [code]) :
    PlainRead scope.environment tokens opcode operand span := by
  obtain ⟨kind, immediate⟩ := isPlain
  cases occurs.eq_of_singleton_plain
  exact ⟨scope, _, _, rfl, List.infix_rfl, kind, rfl, immediate⟩

/-- Every plain instruction that a phrase stands for is written in it. -/
theorem Derives.plainRead {phrase : Phrase} {scope : Scope} {code : List Instruction}
    (derived : Derives phrase scope tokens code)
    (occurs : Occurs (.plain opcode operand span) code) :
    PlainRead scope.environment tokens opcode operand span := by
  induction derived with
  | done => cases occurs <;> simp_all
  | noOperand => cases occurs <;> simp_all
  | next _ _ firstIH restIH =>
      rcases occurs.append with occurs | occurs
      · exact (firstIH occurs).mono (List.prefix_append _ _).isInfix
      · exact (restIH occurs).mono (List.suffix_append _ _).isInfix
  | operand _ _ firstIH restIH =>
      rcases occurs.append with occurs | occurs
      · exact (firstIH occurs).mono (List.prefix_append _ _).isInfix
      · exact (restIH occurs).mono (List.suffix_append _ _).isInfix
  | plain isPlain => exact isPlain.read occurs
  | @block scope kind head inner last _ _ _ _ _ _ ih =>
      exact (ih occurs.of_singleton_structured).mono (List.infix_append head inner last)
  | folded _ ih => exact ih occurs
  | @foldedBlock scope kind left right head inner _ _ _ _ _ _ _ ih =>
      have read := ih occurs.of_singleton_structured
      exact read.mono (List.infix_append (left :: head) inner [right])
  | @foldedPlain scope left right first rest code operands _ isPlain _ _ ih =>
      rcases occurs.append with occurs | occurs
      · exact (ih occurs).mono (List.infix_append (left :: first) rest [right])
      · exact (isPlain.read occurs).mono ⟨[left], rest ++ [right], by simp⟩

end Occurrences

namespace Keyword

/-- The space of the definitions that an instruction refers to, of those that
refer to functions and globals. -/
def referenceSpace? : Keyword → Option IndexSpace
  | call => some .function
  | globalGet | globalSet => some .global
  | _ => none

end Keyword

theorem Immediate.refersTo {scope : Scope} {opcode : Keyword} {tokens : List Token}
    {operand : Option Operand} {space : IndexSpace}
    (immediate : Immediate scope opcode tokens operand)
    (referring : opcode.referenceSpace? = some space) :
    ∃ reference index, tokens = [reference] ∧ operand = some (.index index) ∧
      RefersTo (scope.environment.names.get space) reference index := by
  cases immediate with
  | call reference =>
      cases referring
      obtain ⟨token, rfl, refers⟩ := reference
      exact ⟨token, _, rfl, rfl, refers⟩
  | global listed reference =>
      obtain ⟨token, rfl, refers⟩ := reference
      refine ⟨token, _, rfl, rfl, ?_⟩
      simp only [List.mem_cons, List.not_mem_nil, or_false] at listed
      rcases listed with rfl | rfl <;> cases referring <;> exact refers
  | indirect => cases referring
  | word => cases referring
  | localVariable listed | label listed | literal listed | nothing listed =>
      cases opcode <;> simp [Keyword.referenceSpace?] at listed referring

end WatMachine
