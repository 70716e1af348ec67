import Mathlib.Data.List.Forall2
import WatMachine.Proofs.Grammar.Phrases

/-!
# Which tokens are references

A reading of tokens says which of them refer to an index, and to which one.
The tokens of a function body have a reading that follows their derivation.
Whether a reference is written by name or by number makes no difference to
what the body means, so one may be put in place of the other.
-/

namespace WatMachine

/-- A token as it is read: as a reference to an index, or as something
else. -/
structure Reading where
  token : Token
  index : Option Nat
  deriving Repr, DecidableEq

namespace Reading

def tokens (readings : List Reading) : List Token :=
  readings.map Reading.token

/-- Tokens of which none is a reference. -/
def others (tokens : List Token) : List Reading :=
  tokens.map (⟨·, none⟩)

@[simp]
theorem tokens_nil : tokens [] = [] :=
  rfl

@[simp]
theorem tokens_cons (reading : Reading) (readings : List Reading) :
    tokens (reading :: readings) = reading.token :: tokens readings :=
  rfl

@[simp]
theorem tokens_append (readings more : List Reading) :
    tokens (readings ++ more) = tokens readings ++ tokens more :=
  List.map_append

@[simp]
theorem tokens_flatten (readings : List (List Reading)) :
    tokens readings.flatten = (readings.map tokens).flatten :=
  List.map_flatten

@[simp]
theorem tokens_others (all : List Token) : tokens (others all) = all := by
  simp [tokens, others, Function.comp_def]

@[simp]
theorem others_append (front back : List Token) :
    others (front ++ back) = others front ++ others back :=
  List.map_append

/-- Whether a reading is another one with some references written by
number. -/
def Renumbers : List Reading → List Reading → Prop :=
  List.Forall₂ fun first second => second = first ∨
    ∃ index, first.index = some index ∧ second.index = some index ∧
      second.token.kind = .integer index ∧ index < 0x100000000 ∧
      second.token.span = first.token.span

namespace Renumbers

variable {readings more : List Reading}

theorem refl (readings : List Reading) : Renumbers readings readings :=
  List.forall₂_same.mpr fun _ _ => .inl rfl

/-- One reference may be written by number. -/
theorem set {position index : Nat} {token number : Token}
    (found : readings[position]? = some ⟨token, some index⟩) (small : index < 0x100000000)
    (place : number.span = token.span) (kind : number.kind = .integer index) :
    Renumbers readings (readings.set position ⟨number, some index⟩) := by
  induction readings generalizing position with
  | nil => cases found
  | cons first rest ih =>
      cases position with
      | zero =>
          cases found
          exact .cons (.inr ⟨index, rfl, rfl, kind, small, place⟩) (refl rest)
      | succ position => exact .cons (.inl rfl) (ih found)

theorem append_left {front back : List Reading} (renumbers : Renumbers (front ++ back) more) :
    ∃ first second, more = first ++ second ∧ Renumbers front first ∧ Renumbers back second := by
  refine ⟨more.take front.length, more.drop front.length, (List.take_append_drop _ _).symm, ?_, ?_⟩
  · have taken := List.forall₂_take front.length renumbers
    rwa [List.take_left] at taken
  · have dropped := List.forall₂_drop front.length renumbers
    rwa [List.drop_left] at dropped

theorem eq_of_others {tokens : List Token} (renumbers : Renumbers (others tokens) more) :
    more = others tokens := by
  induction tokens generalizing more with
  | nil =>
      cases renumbers
      rfl
  | cons token tokens ih =>
      cases renumbers with
      | cons first rest =>
          rcases first with rfl | ⟨index, marked, -⟩
          · rw [ih rest]
            rfl
          · cases marked

/-- What a reading refers to is kept. -/
theorem refers {names : List (Option String)} {token : Token} {index : Nat}
    (refers : RefersTo names token index) (renumbers : Renumbers [⟨token, some index⟩] more) :
    ∃ other, more = [⟨other, some index⟩] ∧ RefersTo names other index := by
  cases renumbers with
  | @cons _ second _ _ first rest =>
      cases rest
      obtain ⟨other, mark⟩ := second
      rcases first with same | ⟨number, marked, alsoMarked, kind, small, -⟩
      · cases same
        exact ⟨token, rfl, refers⟩
      · cases marked
        cases alsoMarked
        refine ⟨other, rfl, ?_⟩
        have positive : 0 ≤ (index : Int) := Int.natCast_nonneg index
        have bounded : (index : Int) < 0x100000000 := by omega
        exact .number kind positive bounded

end Renumbers

end Reading

open Reading

/-- The group `( type x )`, in which `x` is a reference. -/
inductive TypeReference (names : List (Option String)) : List Reading → Nat → Prop where
  | mk {left head token right : Token} {index : Nat} (opened : left.kind = .leftParen)
      (headed : head.kind = .keyword .typeForm) (refers : RefersTo names token index)
      (closed : right.kind = .rightParen) :
      TypeReference names (others [left, head] ++ [⟨token, some index⟩] ++ others [right]) index

/-- How the operand of an instruction is read. -/
inductive ImmediateRead (scope : Scope) :
    Keyword → List Reading → Option Operand → Prop where
  | reference {opcode : Keyword} {token : Token} {index : Nat}
      (immediate : Immediate scope opcode [token] (some (.index index))) :
      ImmediateRead scope opcode [⟨token, some index⟩] (some (.index index))
  | type {type : List Reading} {index : Nat} {groups : List Token} {skipped : List Unit}
      (called : TypeReference (scope.environment.names.get .type) type index)
      (rest : Many SkippedGroup groups skipped) :
      ImmediateRead scope .callIndirect (type ++ others groups) (some (.index index))
  | other {opcode : Keyword} {tokens : List Token} {operand : Option Operand}
      (immediate : Immediate scope opcode tokens operand)
      (unreferring : ∀ index, operand ≠ some (.index index)) :
      ImmediateRead scope opcode (others tokens) operand

/-- How the tokens of a phrase are read.  References stand in operands only. -/
inductive PhraseRead : Phrase → Scope → List Reading → List Instruction → Prop where
  | done {scope : Scope} : PhraseRead .sequence scope [] []
  | next {scope : Scope} {first rest : List Reading} {code others : List Instruction}
      (instruction : PhraseRead .instruction scope first code)
      (sequence : PhraseRead .sequence scope rest others) :
      PhraseRead .sequence scope (first ++ rest) (code ++ others)
  | plain {scope : Scope} {word : Token} {opcode : Keyword} {readings : List Reading}
      {operand : Option Operand} (kind : word.kind = .keyword opcode)
      (immediate : ImmediateRead scope opcode readings operand) :
      PhraseRead .instruction scope (others [word] ++ readings) [.plain opcode operand word.span]
  | block {scope : Scope} {kind : BlockKind} {head last : List Token} {inner : List Reading}
      {label : Option String} {span : Source.Span} {body : List Instruction}
      (opening : Opening kind head label span)
      (sequence : PhraseRead .sequence { scope with labels := label :: scope.labels } inner body)
      (closing : Closing label last) :
      PhraseRead .instruction scope (others head ++ inner ++ others last)
        [.structured kind label body span]
  | folded {scope : Scope} {readings : List Reading} {code : List Instruction}
      (folded : PhraseRead .folded scope readings code) :
      PhraseRead .instruction scope readings code
  | foldedBlock {scope : Scope} {kind : BlockKind} {left right : Token} {head : List Token}
      {inner : List Reading} {label : Option String} {span : Source.Span}
      {body : List Instruction} (opened : left.kind = .leftParen)
      (opening : Opening kind head label span)
      (sequence : PhraseRead .sequence { scope with labels := label :: scope.labels } inner body)
      (closed : right.kind = .rightParen) :
      PhraseRead .folded scope (others (left :: head) ++ inner ++ others [right])
        [.structured kind label body span]
  | foldedPlain {scope : Scope} {left right word : Token} {opcode : Keyword}
      {readings rest : List Reading} {operand : Option Operand} {operands : List Instruction}
      (opened : left.kind = .leftParen) (kind : word.kind = .keyword opcode)
      (immediate : ImmediateRead scope opcode readings operand)
      (operandsRead : PhraseRead .operands scope rest operands)
      (closed : right.kind = .rightParen) :
      PhraseRead .folded scope (others [left, word] ++ readings ++ rest ++ others [right])
        (operands ++ [.plain opcode operand word.span])
  | noOperand {scope : Scope} : PhraseRead .operands scope [] []
  | operand {scope : Scope} {first rest : List Reading} {code others : List Instruction}
      (folded : PhraseRead .folded scope first code)
      (operands : PhraseRead .operands scope rest others) :
      PhraseRead .operands scope (first ++ rest) (code ++ others)

section References

variable {names : List (Option String)} {index : Nat}

theorem TypeReference.group {readings : List Reading}
    (reference : TypeReference names readings index) :
    Group .typeForm (Reference names) (tokens readings) index := by
  obtain @⟨left, head, token, right, _, opened, headed, refers, closed⟩ := reference
  have inner : Reference names [token] index := ⟨token, rfl, refers⟩
  exact Group.mk opened headed inner closed

theorem exists_typeReference {group : List Token}
    (grouped : Group .typeForm (Reference names) group index) :
    ∃ readings, tokens readings = group ∧ TypeReference names readings index := by
  obtain ⟨opened, headed, ⟨token, rfl, refers⟩, closed⟩ := grouped
  exact ⟨_, rfl, .mk opened headed refers closed⟩

theorem TypeReference.renumber {readings more : List Reading}
    (reference : TypeReference names readings index) (renumbers : Renumbers readings more) :
    TypeReference names more index := by
  obtain ⟨opened, headed, refers, closed⟩ := reference
  obtain ⟨_, last, rfl, renumbers, ended⟩ := renumbers.append_left
  obtain ⟨front, _, rfl, begun, renumbers⟩ := renumbers.append_left
  obtain ⟨other, rfl, refers⟩ := renumbers.refers refers
  rw [begun.eq_of_others, ended.eq_of_others]
  exact .mk opened headed refers closed

end References

section Immediates

variable {scope : Scope} {opcode : Keyword} {operand : Option Operand}

theorem ImmediateRead.immediate {readings : List Reading}
    (read : ImmediateRead scope opcode readings operand) :
    Immediate scope opcode (tokens readings) operand := by
  cases read with
  | reference immediate => exact immediate
  | type called rest =>
      rw [tokens_append, tokens_others]
      exact .indirect (.written called.group) rest
  | other immediate unreferring =>
      rw [tokens_others]
      exact immediate

theorem exists_immediateRead {all : List Token} (immediate : Immediate scope opcode all operand) :
    ∃ readings, tokens readings = all ∧ ImmediateRead scope opcode readings operand := by
  have ofReference {index : Nat} {names : List (Option String)}
      (reference : Reference names all index)
      (immediate : Immediate scope opcode all (some (.index index))) :
      ∃ readings, tokens readings = all ∧
        ImmediateRead scope opcode readings (some (.index index)) := by
    obtain ⟨token, rfl, -⟩ := reference
    exact ⟨[⟨token, some index⟩], rfl, .reference immediate⟩
  have ofOther (unreferring : ∀ index, operand ≠ some (.index index)) :
      ∃ readings, tokens readings = all ∧ ImmediateRead scope opcode readings operand :=
    ⟨_, tokens_others all, .other immediate unreferring⟩
  cases id immediate with
  | call reference => exact ofReference reference immediate
  | localVariable _ reference => exact ofReference reference immediate
  | global _ reference => exact ofReference reference immediate
  | label _ reference => exact ofReference reference immediate
  | word | literal | nothing => exact ofOther nofun
  | indirect called rest =>
      cases called with
      | omitted => exact ofOther nofun
      | written group =>
          obtain ⟨type, rfl, called⟩ := exists_typeReference group
          exact ⟨_, by simp, .type called rest⟩

/-- An operand of one token that is an index is a reference. -/
theorem Immediate.exists_refers {token : Token} {index : Nat}
    (immediate : Immediate scope opcode [token] (some (.index index))) :
    ∃ names, RefersTo names token index ∧ ∀ other, RefersTo names other index →
      Immediate scope opcode [other] (some (.index index)) := by
  have ofReference {names : List (Option String)}
      (reference : Reference names [token] index)
      (again : ∀ {tokens}, Reference names tokens index →
        Immediate scope opcode tokens (some (.index index))) :
      ∃ names, RefersTo names token index ∧ ∀ other, RefersTo names other index →
        Immediate scope opcode [other] (some (.index index)) := by
    obtain ⟨_, ⟨⟩, refers⟩ := reference
    exact ⟨names, refers, fun other refers => again ⟨other, rfl, refers⟩⟩
  generalize written : [token] = all at immediate
  cases immediate with
  | call reference => exact ofReference (written ▸ reference) .call
  | localVariable listed reference =>
      exact ofReference (written ▸ reference) (.localVariable listed)
  | global listed reference => exact ofReference (written ▸ reference) (.global listed)
  | label listed reference => exact ofReference (written ▸ reference) (.label listed)
  | indirect called rest =>
      cases called with
      | written group =>
          obtain ⟨-, -, -, -⟩ := group
          simp at written

theorem ImmediateRead.renumber {readings more : List Reading}
    (read : ImmediateRead scope opcode readings operand) (renumbers : Renumbers readings more) :
    ImmediateRead scope opcode more operand := by
  cases read with
  | reference immediate =>
      obtain ⟨names, refers, again⟩ := immediate.exists_refers
      obtain ⟨other, rfl, refers⟩ := renumbers.refers refers
      exact .reference (again other refers)
  | type called rest =>
      obtain ⟨type, groups, rfl, begun, ended⟩ := renumbers.append_left
      rw [ended.eq_of_others]
      exact .type (called.renumber begun) rest
  | other immediate unreferring =>
      rw [renumbers.eq_of_others]
      exact .other immediate unreferring

end Immediates

section Bodies

variable {phrase : Phrase} {scope : Scope} {code : List Instruction}

theorem PhraseRead.derives {readings : List Reading}
    (read : PhraseRead phrase scope readings code) :
    Derives phrase scope (tokens readings) code := by
  induction read with
  | done => exact .done
  | noOperand => exact .noOperand
  | next _ _ first rest =>
      rw [tokens_append]
      exact .next first rest
  | operand _ _ first rest =>
      rw [tokens_append]
      exact .operand first rest
  | plain kind immediate =>
      rw [tokens_append, tokens_others]
      exact .plain (.mk kind immediate.immediate)
  | block opening _ closing inner =>
      rw [tokens_append, tokens_append, tokens_others, tokens_others]
      exact .block opening inner closing
  | folded _ inner => exact .folded inner
  | foldedBlock opened opening _ closed inner =>
      rw [tokens_append, tokens_append, tokens_others, tokens_others]
      exact .foldedBlock opened opening inner closed
  | foldedPlain opened kind immediate _ closed rest =>
      rw [tokens_append, tokens_append, tokens_append, tokens_others, tokens_others]
      exact .foldedPlain opened (.mk kind immediate.immediate) rest closed

theorem Derives.exists_read {all : List Token} (derived : Derives phrase scope all code) :
    ∃ readings, tokens readings = all ∧ PhraseRead phrase scope readings code := by
  induction derived with
  | done => exact ⟨[], rfl, .done⟩
  | noOperand => exact ⟨[], rfl, .noOperand⟩
  | next _ _ firstIH restIH =>
      obtain ⟨first, rfl, begun⟩ := firstIH
      obtain ⟨rest, rfl, followed⟩ := restIH
      exact ⟨first ++ rest, tokens_append _ _, .next begun followed⟩
  | operand _ _ firstIH restIH =>
      obtain ⟨first, rfl, begun⟩ := firstIH
      obtain ⟨rest, rfl, followed⟩ := restIH
      exact ⟨first ++ rest, tokens_append _ _, .operand begun followed⟩
  | plain isPlain =>
      obtain ⟨kind, immediate⟩ := isPlain
      obtain ⟨readings, rfl, read⟩ := exists_immediateRead immediate
      exact ⟨_, by simp, .plain kind read⟩
  | block opening _ closing ih =>
      obtain ⟨inner, rfl, read⟩ := ih
      exact ⟨_, by simp, .block opening read closing⟩
  | folded _ ih =>
      obtain ⟨readings, rfl, read⟩ := ih
      exact ⟨readings, rfl, .folded read⟩
  | foldedBlock opened opening _ closed ih =>
      obtain ⟨inner, rfl, read⟩ := ih
      exact ⟨_, by simp, .foldedBlock opened opening read closed⟩
  | foldedPlain opened isPlain _ closed ih =>
      obtain ⟨kind, immediate⟩ := isPlain
      obtain ⟨readings, rfl, read⟩ := exists_immediateRead immediate
      obtain ⟨rest, rfl, operands⟩ := ih
      exact ⟨_, by simp, .foldedPlain opened kind read operands closed⟩

/-- A body means the same with its references written by number. -/
theorem PhraseRead.renumber {readings more : List Reading}
    (read : PhraseRead phrase scope readings code) (renumbers : Renumbers readings more) :
    PhraseRead phrase scope more code := by
  induction read generalizing more with
  | done =>
      cases renumbers
      exact .done
  | noOperand =>
      cases renumbers
      exact .noOperand
  | next _ _ firstIH restIH =>
      obtain ⟨first, rest, rfl, begun, ended⟩ := renumbers.append_left
      exact .next (firstIH begun) (restIH ended)
  | operand _ _ firstIH restIH =>
      obtain ⟨first, rest, rfl, begun, ended⟩ := renumbers.append_left
      exact .operand (firstIH begun) (restIH ended)
  | plain kind immediate =>
      obtain ⟨word, operand, rfl, begun, ended⟩ := renumbers.append_left
      rw [begun.eq_of_others]
      exact .plain kind (immediate.renumber ended)
  | block opening _ closing ih =>
      obtain ⟨_, last, rfl, renumbers, ended⟩ := renumbers.append_left
      obtain ⟨head, inner, rfl, begun, renumbers⟩ := renumbers.append_left
      rw [begun.eq_of_others, ended.eq_of_others]
      exact .block opening (ih renumbers) closing
  | folded _ ih => exact .folded (ih renumbers)
  | foldedBlock opened opening _ closed ih =>
      obtain ⟨_, last, rfl, renumbers, ended⟩ := renumbers.append_left
      obtain ⟨head, inner, rfl, begun, renumbers⟩ := renumbers.append_left
      rw [begun.eq_of_others, ended.eq_of_others]
      exact .foldedBlock opened opening (ih renumbers) closed
  | foldedPlain opened kind immediate _ closed ih =>
      obtain ⟨_, last, rfl, renumbers, ended⟩ := renumbers.append_left
      obtain ⟨_, operands, rfl, renumbers, followed⟩ := renumbers.append_left
      obtain ⟨head, operand, rfl, begun, renumbers⟩ := renumbers.append_left
      rw [begun.eq_of_others, ended.eq_of_others]
      exact .foldedPlain opened kind (immediate.renumber renumbers) (ih followed) closed

end Bodies

end WatMachine
