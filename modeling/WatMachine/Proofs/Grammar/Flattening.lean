import Mathlib.Logic.Relation
import WatMachine.Proofs.Grammar.Forms

/-!
# Folded and flat instructions

A folded instruction that stands in a sequence may be written flat: a folded
block with its `end`, and a folded plain instruction behind its operands.
Such a step may be taken anywhere in a body, in sequences of any depth.  The
tokens before and after it are derived in the same scopes and stand for the
same instructions.
-/

namespace WatMachine

open TokenStream

/-- One folded instruction in a sequence, however deep, is written flat. -/
inductive Flattens : Phrase → List Token → List Token → Prop where
  /-- `( block … instr* )` becomes `block … instr* end`. -/
  | block {kind : BlockKind} {left right word : Token} {head inner rest : List Token}
      {label : Option String} {span : Source.Span} (opened : left.kind = .leftParen)
      (opening : Opening kind head label span) (body : Forms .sequence inner)
      (closed : right.kind = .rightParen) (ended : word.kind = .keyword .blockEnd)
      (others : Forms .sequence rest) :
      Flattens .sequence ((left :: head ++ inner ++ [right]) ++ rest)
        ((head ++ inner ++ [word]) ++ rest)
  /-- `( plain folded* )` becomes `folded* plain`. -/
  | plain {left right : Token} {first operands rest : List Token} (opened : left.kind = .leftParen)
      (isPlain : FormsPlain first) (folded : Forms .operands operands)
      (closed : right.kind = .rightParen) (others : Forms .sequence rest) :
      Flattens .sequence ((left :: first ++ operands ++ [right]) ++ rest)
        (operands ++ (first ++ rest))
  | first {old new rest : List Token} (flattens : Flattens .instruction old new)
      (others : Forms .sequence rest) : Flattens .sequence (old ++ rest) (new ++ rest)
  | later {first old new : List Token} (begun : Forms .instruction first)
      (flattens : Flattens .sequence old new) : Flattens .sequence (first ++ old) (first ++ new)
  | inBlock {kind : BlockKind} {head old new last : List Token} {label : Option String}
      {span : Source.Span} (opening : Opening kind head label span)
      (flattens : Flattens .sequence old new) (closing : Closing label last) :
      Flattens .instruction (head ++ old ++ last) (head ++ new ++ last)
  | folded {old new : List Token} (flattens : Flattens .folded old new) :
      Flattens .instruction old new
  | inFoldedBlock {kind : BlockKind} {left right : Token} {head old new : List Token}
      {label : Option String} {span : Source.Span} (opened : left.kind = .leftParen)
      (opening : Opening kind head label span) (flattens : Flattens .sequence old new)
      (closed : right.kind = .rightParen) :
      Flattens .folded (left :: head ++ old ++ [right]) (left :: head ++ new ++ [right])
  | inOperands {left right : Token} {first old new : List Token} (opened : left.kind = .leftParen)
      (isPlain : FormsPlain first) (flattens : Flattens .operands old new)
      (closed : right.kind = .rightParen) :
      Flattens .folded (left :: first ++ old ++ [right]) (left :: first ++ new ++ [right])
  | firstOperand {old new rest : List Token} (flattens : Flattens .folded old new)
      (others : Forms .operands rest) : Flattens .operands (old ++ rest) (new ++ rest)
  | laterOperand {first old new : List Token} (begun : Forms .folded first)
      (flattens : Flattens .operands old new) : Flattens .operands (first ++ old) (first ++ new)

theorem BlockKind.keyword_injective : Function.Injective BlockKind.keyword := by
  intro first second same
  cases first <;> cases second <;> first | rfl | cases same

/-- The first words of a block end in one place only. -/
theorem Opening.unique {kind other : BlockKind} {head words back rest : List Token}
    {label name : Option String} {span place finish : Source.Span}
    (opening : Opening kind head label span) (also : Opening other words name place)
    (same : head ++ back = words ++ rest) (clear : (TokenStream.mk back finish).Clear)
    (alsoClear : (TokenStream.mk rest finish).Clear) :
    kind = other ∧ head = words ∧ label = name ∧ span = place ∧ back = rest := by
  obtain @⟨word, front, groups, _, types, opened, named, results⟩ := opening
  obtain @⟨first, others, more, _, given, alsoOpened, alsoNamed, alsoResults⟩ := also
  simp only [List.cons_append, List.append_assoc] at same
  obtain ⟨rfl, tails⟩ := List.cons.inj same
  have kinds : TokenKind.keyword kind.keyword = .keyword other.keyword :=
    opened.symm.trans alsoOpened
  have streams : ((TokenStream.mk back finish).prepend groups).prepend front =
      ((TokenStream.mk rest finish).prepend more).prepend others := by
    simp only [prepend, tails]
  have taken := Reader.identifier?_eq_ok.mpr ⟨front, rfl, named, fun _ =>
    Reader.unnamed_of_resultGroups results clear.unnamed⟩
  have alsoTaken := Reader.identifier?_eq_ok.mpr ⟨others, rfl, alsoNamed, fun _ =>
    Reader.unnamed_of_resultGroups alsoResults alsoClear.unnamed⟩
  rw [streams, alsoTaken] at taken
  injection taken with pairs
  obtain ⟨rfl, between⟩ := Prod.mk.inj pairs
  have read := Reader.results_reads.complete _ ⟨types, results, rfl⟩ clear.not_results
  have alsoRead := Reader.results_reads.complete _ ⟨given, alsoResults, rfl⟩ alsoClear.not_results
  rw [← between, alsoRead] at read
  injection read with ends
  obtain ⟨-, stops⟩ := Prod.mk.inj ends
  obtain ⟨rfl, -⟩ := TokenStream.mk.inj stops
  simp only [prepend, TokenStream.mk.injEq, List.append_cancel_right_eq] at between
  obtain ⟨rfl, -⟩ := between
  obtain rfl := List.append_cancel_right tails
  exact ⟨BlockKind.keyword_injective (TokenKind.keyword.inj kinds), rfl, rfl, rfl, rfl⟩

/-- A block is divided in one way only into its first words, its body and what
ends it. -/
theorem Opening.body_unique {kind other : BlockKind}
    {head words inner body last ending : List Token} {label name : Option String}
    {span place : Source.Span}
    (opening : Opening kind head label span) (also : Opening other words name place)
    (forms : Forms .sequence inner) (alsoForms : Forms .sequence body)
    (same : head ++ inner ++ last = words ++ body ++ ending)
    (stops : (TokenStream.mk last .origin).current.kind.endsSequence = true)
    (alsoStops : (TokenStream.mk ending .origin).current.kind.endsSequence = true) :
    kind = other ∧ head = words ∧ label = name ∧ span = place ∧ inner = body ∧ last = ending := by
  rw [List.append_assoc, List.append_assoc] at same
  obtain ⟨rfl, rfl, rfl, rfl, tails⟩ := opening.unique also same
    (forms.clear (.of_endsSequence stops)) (alsoForms.clear (.of_endsSequence alsoStops))
  obtain ⟨rfl, rfl⟩ := forms.unique alsoForms tails stops alsoStops
  exact ⟨rfl, rfl, rfl, rfl, rfl, rfl⟩

theorem Opening.not_plain {kind : BlockKind} {head inner rest back : List Token}
    {label : Option String} {span : Source.Span} (opening : Opening kind head label span)
    (forms : FormsPlain rest) (same : head ++ inner = rest ++ back) : False := by
  obtain ⟨word, _, rfl, isWord⟩ := opening.word_first
  obtain ⟨first, _, opcode, rfl, isFirst, unstructured⟩ := forms.word_first
  obtain ⟨rfl, -⟩ := List.cons.inj same
  cases isWord.symm.trans isFirst
  cases kind <;> cases unstructured

theorem Closing.stops {label : Option String} {last : List Token} (closing : Closing label last) :
    (TokenStream.mk last .origin).current.kind.endsSequence = true := by
  obtain ⟨word, rest, rfl, ended⟩ := closing.word_first
  change word.kind.endsSequence = true
  rw [ended]
  rfl

theorem stops_of_rightParen {right : Token} (closed : right.kind = .rightParen) :
    (TokenStream.mk [right] .origin).current.kind.endsSequence = true := by
  change right.kind.endsSequence = true
  rw [closed]
  rfl

namespace Forms

variable {scope : Scope} {first rest operands : List Token} {code : List Instruction}

/-- A sequence is divided in one way only into its first instruction and the
others. -/
theorem derives_next (begun : Forms .instruction first) (others : Forms .sequence rest) :
    Derives .sequence scope (first ++ rest) code ↔
      ∃ front back, code = front ++ back ∧ Derives .instruction scope first front ∧
        Derives .sequence scope rest back := by
  constructor
  · intro derived
    generalize whole : first ++ rest = all at derived
    cases derived with
    | done =>
        obtain ⟨rfl, -⟩ := List.append_eq_nil_iff.mp whole
        obtain ⟨_, _, formed⟩ := begun
        obtain ⟨_, _, shape, -⟩ := formed.first_token
        cases shape
    | next front back =>
        obtain ⟨rfl, rfl⟩ := begun.unique front.forms whole others.clear_end back.forms.clear_end
        exact ⟨_, _, rfl, front, back⟩
  · rintro ⟨_, _, rfl, front, back⟩
    exact .next front back

theorem derives_operand (begun : Forms .folded first) :
    Derives .operands scope (first ++ rest) code ↔
      ∃ front back, code = front ++ back ∧ Derives .folded scope first front ∧
        Derives .operands scope rest back := by
  constructor
  · intro derived
    generalize whole : first ++ rest = all at derived
    cases derived with
    | noOperand =>
        obtain ⟨rfl, -⟩ := List.append_eq_nil_iff.mp whole
        obtain ⟨_, _, formed⟩ := begun
        obtain ⟨_, _, shape, -⟩ := formed.first_token
        cases shape
    | operand front back =>
        obtain ⟨rfl, rfl⟩ := begun.unique front.forms whole trivial trivial
        exact ⟨_, _, rfl, front, back⟩
  · rintro ⟨_, _, rfl, front, back⟩
    exact .operand front back

theorem first_leftParen (forms : Forms .folded first) :
    ∃ left tail, first = left :: tail ∧ left.kind = .leftParen := by
  obtain ⟨_, _, formed⟩ := forms
  obtain ⟨_, _, shape, opened⟩ := formed.first_token
  obtain ⟨left, tail, rfl, rfl, -⟩ := List.map_eq_cons_iff.mp shape
  exact ⟨left, tail, rfl, by simpa using opened⟩

theorem derives_folded (forms : Forms .folded first) :
    Derives .instruction scope first code ↔ Derives .folded scope first code := by
  refine ⟨fun derived => ?_, .folded⟩
  obtain ⟨left, tail, rfl, opened⟩ := forms.first_leftParen
  generalize whole : left :: tail = all at derived
  cases derived with
  | plain isPlain =>
      obtain ⟨kind, -⟩ := isPlain
      cases whole
      cases opened.symm.trans kind
  | block opening =>
      obtain ⟨word, _, rfl, isWord⟩ := opening.word_first
      cases whole
      cases opened.symm.trans isWord
  | folded folded => exact folded

theorem derives_plain (forms : FormsPlain first) :
    Derives .instruction scope first code ↔
      ∃ instruction, code = [instruction] ∧ Plain scope first instruction := by
  constructor
  · intro derived
    cases derived with
    | plain isPlain => exact ⟨_, rfl, isPlain⟩
    | @block _ _ head inner last _ _ _ opening =>
        have same : head ++ (inner ++ last) = head ++ inner ++ last ++ [] := by simp
        exact (opening.not_plain forms same).elim
    | folded folded =>
        obtain ⟨left, _, rfl, opened⟩ := folded.first_token
        obtain ⟨word, _, opcode, shape, isWord, -⟩ := forms.word_first
        cases shape
        cases opened.symm.trans isWord
  · rintro ⟨_, rfl, isPlain⟩
    exact .plain isPlain

section Blocks

variable {kind : BlockKind} {left right : Token} {head inner last : List Token}
  {label : Option String} {span : Source.Span}

theorem derives_block (opening : Opening kind head label span) (forms : Forms .sequence inner)
    (closing : Closing label last) :
    Derives .instruction scope (head ++ inner ++ last) code ↔
      ∃ body, code = [.structured kind label body span] ∧
        Derives .sequence { scope with labels := label :: scope.labels } inner body := by
  constructor
  · intro derived
    generalize whole : head ++ inner ++ last = all at derived
    cases derived with
    | plain isPlain =>
        rw [List.append_assoc, ← List.append_nil all] at whole
        exact (opening.not_plain isPlain.forms whole).elim
    | block alsoOpening body alsoClosing =>
        obtain ⟨rfl, rfl, rfl, rfl, rfl, rfl⟩ := opening.body_unique alsoOpening forms body.forms
          whole closing.stops alsoClosing.stops
        exact ⟨_, rfl, body⟩
    | folded folded =>
        obtain ⟨left, _, rfl, opened⟩ := folded.first_token
        obtain ⟨word, _, rfl, isWord⟩ := opening.word_first
        cases whole
        cases opened.symm.trans isWord
  · rintro ⟨_, rfl, body⟩
    exact .block opening body closing

theorem derives_foldedBlock (opened : left.kind = .leftParen)
    (opening : Opening kind head label span) (forms : Forms .sequence inner)
    (closed : right.kind = .rightParen) :
    Derives .folded scope (left :: head ++ inner ++ [right]) code ↔
      ∃ body, code = [.structured kind label body span] ∧
        Derives .sequence { scope with labels := label :: scope.labels } inner body := by
  constructor
  · intro derived
    generalize whole : left :: head ++ inner ++ [right] = all at derived
    cases derived with
    | foldedBlock _ alsoOpening body alsoClosed =>
        obtain ⟨rfl, rfl, rfl, rfl, rfl, -⟩ := opening.body_unique alsoOpening forms body.forms
          (List.cons.inj whole).2 (stops_of_rightParen closed) (stops_of_rightParen alsoClosed)
        exact ⟨_, rfl, body⟩
    | foldedPlain _ isPlain =>
        simp only [List.cons_append, List.append_assoc, List.cons.injEq] at whole
        exact (opening.not_plain isPlain.forms whole.2).elim
  · rintro ⟨_, rfl, body⟩
    exact .foldedBlock opened opening body closed

theorem derives_foldedPlain (opened : left.kind = .leftParen) (isPlain : FormsPlain first)
    (forms : Forms .operands operands) (closed : right.kind = .rightParen) :
    Derives .folded scope (left :: first ++ operands ++ [right]) code ↔
      ∃ instruction others, code = others ++ [instruction] ∧ Plain scope first instruction ∧
        Derives .operands scope operands others := by
  constructor
  · intro derived
    generalize whole : left :: first ++ operands ++ [right] = all at derived
    cases derived with
    | foldedBlock _ opening =>
        simp only [List.cons_append, List.append_assoc, List.cons.injEq] at whole
        exact (opening.not_plain isPlain whole.2.symm).elim
    | foldedPlain _ alsoPlain others alsoClosed =>
        simp only [List.cons_append, List.append_assoc, List.cons.injEq] at whole
        obtain ⟨rfl, tails⟩ := (Forms.plain isPlain).unique (.plain alsoPlain.forms) whole.2
          (forms.clear (.of_endsSequence (stops_of_rightParen closed)))
          (others.forms.clear (.of_endsSequence (stops_of_rightParen alsoClosed)))
        obtain ⟨rfl, -⟩ := List.append_inj' tails rfl
        exact ⟨_, _, rfl, alsoPlain, others⟩
  · rintro ⟨_, _, rfl, plain, others⟩
    exact .foldedPlain opened plain others closed

end Blocks

end Forms

section Operands

variable {scope : Scope} {operands rest : List Token} {code : List Instruction}

/-- Folded operands are also instructions of a sequence. -/
theorem Derives.operands_append {others : List Instruction}
    (derived : Derives .operands scope operands others)
    (followed : Derives .sequence scope rest code) :
    Derives .sequence scope (operands ++ rest) (others ++ code) := by
  generalize isOperands : Phrase.operands = phrase at derived
  induction derived with
  | noOperand => exact followed
  | operand folded _ _ ih =>
      rw [List.append_assoc, List.append_assoc]
      exact .next (.folded folded) (ih followed isOperands)
  | done | next | plain | block | folded | foldedBlock | foldedPlain => cases isOperands

theorem Forms.operands_append (forms : Forms .operands operands) (others : Forms .sequence rest) :
    Forms .sequence (operands ++ rest) := by
  obtain ⟨code, derived⟩ := forms.derives Scope.broad_broadest
  obtain ⟨more, followed⟩ := others.derives Scope.broad_broadest
  rw [Forms, List.map_append]
  exact ⟨_, _, derived.operands_append followed⟩

/-- Instructions in front of a sequence that have the form of operands are
operands. -/
theorem Forms.derives_operands_append (forms : Forms .operands operands)
    (others : Forms .sequence rest) :
    Derives .sequence scope (operands ++ rest) code ↔
      ∃ front back, code = front ++ back ∧ Derives .operands scope operands front ∧
        Derives .sequence scope rest back := by
  constructor
  · intro derived
    obtain ⟨broad, _, formed⟩ := forms
    generalize isOperands : Phrase.operands = phrase at formed
    generalize same : operands.map Token.blurred = all at formed
    induction formed generalizing operands code with
    | noOperand =>
        rw [List.map_eq_nil_iff.mp same] at derived ⊢
        exact ⟨[], code, rfl, .noOperand, derived⟩
    | operand folded formed _ ih =>
        obtain ⟨first, more, rfl, rfl, rfl⟩ := List.map_eq_append_iff.mp same
        have begun : Forms .folded first := ⟨_, _, folded⟩
        have remaining : Forms .operands more := ⟨_, _, formed⟩
        rw [List.append_assoc, derives_next begun.folded (remaining.operands_append others)]
          at derived
        obtain ⟨front, back, rfl, instruction, sequence⟩ := derived
        obtain ⟨middle, last, rfl, operands, rest⟩ := ih sequence isOperands rfl
        exact ⟨front ++ middle, last, (List.append_assoc _ _ _).symm,
          .operand (begun.derives_folded.mp instruction) operands, rest⟩
    | done | next | plain | block | folded | foldedBlock | foldedPlain => cases isOperands
  · rintro ⟨_, _, rfl, front, back⟩
    exact front.operands_append back

end Operands

namespace Flattens

variable {phrase : Phrase} {old new : List Token}

theorem forms (flattens : Flattens phrase old new) : Forms phrase old ∧ Forms phrase new := by
  induction flattens with
  | block opened opening body closed ended others =>
      exact ⟨.next (.folded (.foldedBlock opened opening body closed)) others,
        .next (.block opening body (.short ended)) others⟩
  | plain opened isPlain folded closed others =>
      exact ⟨.next (.folded (.foldedPlain opened isPlain folded closed)) others,
        folded.operands_append (.next (.plain isPlain) others)⟩
  | first _ others ih => exact ⟨.next ih.1 others, .next ih.2 others⟩
  | later begun _ ih => exact ⟨.next begun ih.1, .next begun ih.2⟩
  | inBlock opening _ closing ih => exact ⟨.block opening ih.1 closing, .block opening ih.2 closing⟩
  | folded _ ih => exact ⟨.folded ih.1, .folded ih.2⟩
  | inFoldedBlock opened opening _ closed ih =>
      exact ⟨.foldedBlock opened opening ih.1 closed, .foldedBlock opened opening ih.2 closed⟩
  | inOperands opened isPlain _ closed ih =>
      exact ⟨.foldedPlain opened isPlain ih.1 closed, .foldedPlain opened isPlain ih.2 closed⟩
  | firstOperand _ others ih => exact ⟨.operand ih.1 others, .operand ih.2 others⟩
  | laterOperand begun _ ih => exact ⟨.operand begun ih.1, .operand begun ih.2⟩

/-- Writing an instruction flat changes neither whether tokens are derived nor
what they stand for. -/
theorem derives_iff (flattens : Flattens phrase old new) (scope : Scope)
    (code : List Instruction) : Derives phrase scope old code ↔ Derives phrase scope new code := by
  induction flattens generalizing scope code with
  | block opened opening body closed ended others =>
      have folded := Forms.foldedBlock opened opening body closed
      have flat := Forms.block opening body (.short ended)
      rw [Forms.derives_next folded.folded others, Forms.derives_next flat others]
      simp only [folded.derives_folded, Forms.derives_foldedBlock opened opening body closed,
        Forms.derives_block opening body (.short ended)]
  | plain opened isPlain operands closed others =>
      have folded := Forms.foldedPlain opened isPlain operands closed
      have flat := Forms.next (.plain isPlain) others
      rw [Forms.derives_next folded.folded others, operands.derives_operands_append flat]
      simp only [folded.derives_folded, Forms.derives_foldedPlain opened isPlain operands closed,
        Forms.derives_next (.plain isPlain) others, Forms.derives_plain isPlain]
      -- The instruction comes last among its operands, or first of the others.
      constructor
      · rintro ⟨_, back, rfl, ⟨instruction, front, rfl, plain, derived⟩, rest⟩
        exact ⟨front, instruction :: back, by simp, derived, [instruction], back, rfl,
          ⟨instruction, rfl, plain⟩, rest⟩
      · rintro ⟨front, _, rfl, derived, _, back, rfl, ⟨instruction, rfl, plain⟩, rest⟩
        exact ⟨front ++ [instruction], back, by simp, ⟨instruction, front, rfl, plain, derived⟩,
          rest⟩
  | first flattens others ih =>
      rw [Forms.derives_next flattens.forms.1 others, Forms.derives_next flattens.forms.2 others]
      simp only [ih]
  | later begun flattens ih =>
      rw [Forms.derives_next begun flattens.forms.1, Forms.derives_next begun flattens.forms.2]
      simp only [ih]
  | inBlock opening flattens closing ih =>
      rw [Forms.derives_block opening flattens.forms.1 closing,
        Forms.derives_block opening flattens.forms.2 closing]
      simp only [ih]
  | folded flattens ih =>
      rw [flattens.forms.1.derives_folded, flattens.forms.2.derives_folded, ih]
  | inFoldedBlock opened opening flattens closed ih =>
      rw [Forms.derives_foldedBlock opened opening flattens.forms.1 closed,
        Forms.derives_foldedBlock opened opening flattens.forms.2 closed]
      simp only [ih]
  | inOperands opened isPlain flattens closed ih =>
      rw [Forms.derives_foldedPlain opened isPlain flattens.forms.1 closed,
        Forms.derives_foldedPlain opened isPlain flattens.forms.2 closed]
      simp only [ih]
  | firstOperand flattens others ih =>
      rw [flattens.forms.1.derives_operand, flattens.forms.2.derives_operand]
      simp only [ih]
  | laterOperand begun flattens ih =>
      rw [begun.derives_operand, begun.derives_operand]
      simp only [ih]

end Flattens

end WatMachine
