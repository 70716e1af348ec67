import WatMachine.Proofs.Grammar.Operands

/-!
# Function bodies are read by their grammar

Every phrase of the grammar of bodies has its reader.  What a reader takes is
a phrase, by induction on the fuel of the reader; a phrase is read back, by
induction on its derivation, with fuel for three readers to every token.
-/

namespace WatMachine

open TokenStream

namespace TokenKind

theorem blockKind?_eq_some {token : TokenKind} {kind : BlockKind} :
    token.blockKind? = some kind ↔ token = .keyword kind.keyword := by
  cases token with
  | keyword word => cases word <;> cases kind <;> decide
  | _ => simp [blockKind?, keyword?]

end TokenKind

namespace Phrase

open Reader

def reader : Phrase → Nat → Scope → Reader (List Instruction)
  | sequence => Reader.sequence
  | instruction => Reader.instruction
  | folded => Reader.folded
  | operands => Reader.foldedOperands

/-- The fuel that a phrase of some length needs. -/
def fuel : Phrase → Nat → Nat
  | sequence, length => 3 * length + 1
  | instruction, length => 3 * length
  | folded, length => 3 * length - 1
  | operands, length => 3 * length + 1

def Follows : Phrase → TokenStream → Prop
  | sequence, after => after.current.kind.endsSequence = true
  | instruction, after => after.Clear
  | folded, _ => True
  | operands, after => after.atLeftParen = false

end Phrase

namespace Reader

/-- What the reader of a phrase takes is such a phrase. -/
def PhraseSound (fuel : Nat) : Prop :=
  ∀ (phrase : Phrase) {scope stream code after},
    phrase.reader fuel scope stream = .ok (code, after) →
    ∃ tokens, stream = after.prepend tokens ∧ Derives phrase scope tokens code

/-- What is taken of a block before its end are its first words and its
body. -/
def BlockSound (fuel : Nat) : Prop :=
  ∀ {scope kind stream label code after}, stream.current.kind = .keyword kind.keyword →
    openBlock fuel scope kind stream = .ok ((label, code), after) →
    ∃ head inner body span, stream = after.prepend (head ++ inner) ∧
      Opening kind head label span ∧ Derives .sequence (scope.enter label) inner body ∧
      code = .structured kind label body span

variable {fuel : Nat} {scope : Scope} {stream after : TokenStream} {code : List Instruction}

theorem blockSound_succ (phraseIH : PhraseSound fuel) : BlockSound (fuel + 1) := by
  intro scope kind stream label code after shown read
  obtain ⟨_, behind, moved, read⟩ := bind_eq_ok.mp read
  cases moved
  obtain ⟨name, middle, taken, read⟩ := bind_eq_ok.mp read
  obtain ⟨types, last, resulted, read⟩ := bind_eq_ok.mp read
  obtain ⟨body, final, followed, read⟩ := bind_eq_ok.mp read
  cases read
  obtain ended | ⟨word, behind, rfl, inside⟩ := stream.isEnd_or_exists_prepend
  · simp [Token.isEnd, shown] at ended
  · rw [advance_prepend_of_not_end behind inside] at taken
    obtain ⟨front, rfl, named, -⟩ := identifier?_eq_ok.mp taken
    obtain ⟨groups, rfl, _, results, -⟩ := results_reads.sound resulted
    obtain ⟨inner, rfl, derived⟩ := phraseIH .sequence followed
    exact ⟨word :: front ++ groups, inner, body, _, by simp [prepend],
      .mk shown named results, derived, rfl⟩

theorem sequence_sound (phraseIH : PhraseSound fuel)
    (read : sequence (fuel + 1) scope stream = .ok (code, after)) :
    ∃ tokens, stream = after.prepend tokens ∧ Derives .sequence scope tokens code := by
  rw [sequence] at read
  obtain ⟨_, _, shown, read⟩ := bind_eq_ok.mp read
  cases shown
  split at read
  · cases read
    exact ⟨[], rfl, .done⟩
  · obtain ⟨first, middle, begun, read⟩ := bind_eq_ok.mp read
    obtain ⟨others, last, followed, read⟩ := bind_eq_ok.mp read
    cases read
    obtain ⟨front, rfl, derived⟩ := phraseIH .instruction begun
    obtain ⟨back, rfl, rest⟩ := phraseIH .sequence followed
    exact ⟨front ++ back, (prepend_append _ _ _).symm, .next derived rest⟩

theorem instruction_sound (phraseIH : PhraseSound fuel) (blockIH : BlockSound fuel)
    (read : instruction (fuel + 1) scope stream = .ok (code, after)) :
    ∃ tokens, stream = after.prepend tokens ∧ Derives .instruction scope tokens code := by
  rw [instruction] at read
  obtain ⟨_, _, shown, read⟩ := bind_eq_ok.mp read
  cases shown
  split at read
  · obtain ⟨tokens, rfl, derived⟩ := phraseIH .folded read
    exact ⟨tokens, rfl, .folded derived⟩
  · obtain ⟨_, _, shown, read⟩ := bind_eq_ok.mp read
    cases shown
    cases isBlock : stream.current.kind.blockKind? with
    | some kind =>
        simp only [isBlock] at read
        obtain ⟨⟨label, block⟩, middle, opened, read⟩ := bind_eq_ok.mp read
        obtain ⟨⟨⟩, behind, ended, read⟩ := bind_eq_ok.mp read
        obtain ⟨⟨⟩, last, closed, read⟩ := bind_eq_ok.mp read
        cases read
        obtain ⟨head, inner, body, span, rfl, opening, derived, rfl⟩ :=
          blockIH (TokenKind.blockKind?_eq_some.mp isBlock) opened
        obtain ⟨word, rfl, isEnd⟩ := keyword_eq_ok.mp ended
        obtain ⟨name, rfl, closing⟩ := closingLabel_sound closed isEnd
        refine ⟨head ++ inner ++ word :: name, ?_, .block opening derived closing⟩
        simp [prepend]
    | none =>
        simp only [isBlock] at read
        obtain ⟨_, last, taken, read⟩ := bind_eq_ok.mp read
        cases read
        obtain ⟨tokens, rfl, isPlain⟩ := (plain_reads scope).sound taken
        exact ⟨tokens, rfl, .plain isPlain⟩

theorem folded_sound (phraseIH : PhraseSound fuel) (blockIH : BlockSound fuel)
    (reads : folded (fuel + 1) scope stream = .ok (code, after)) :
    ∃ tokens, stream = after.prepend tokens ∧ Derives .folded scope tokens code := by
  rw [folded] at reads
  obtain ⟨⟨⟩, behind, opened, inside⟩ := bind_eq_ok.mp reads
  obtain ⟨left, rfl, isLeft⟩ := leftParen_eq_ok.mp opened
  obtain ⟨_, _, shown, read⟩ := bind_eq_ok.mp inside
  cases shown
  cases isBlock : behind.current.kind.blockKind? with
  | some kind =>
      simp only [isBlock] at read
      obtain ⟨⟨label, block⟩, middle, opened, read⟩ := bind_eq_ok.mp read
      obtain ⟨⟨⟩, last, closed, read⟩ := bind_eq_ok.mp read
      cases read
      obtain ⟨head, inner, body, span, rfl, opening, derived, rfl⟩ :=
        blockIH (TokenKind.blockKind?_eq_some.mp isBlock) opened
      obtain ⟨right, rfl, isRight⟩ := rightParen_eq_ok.mp closed
      refine ⟨left :: head ++ inner ++ [right], ?_, .foldedBlock isLeft opening derived isRight⟩
      simp [prepend]
  | none =>
      simp only [isBlock] at read
      obtain ⟨code, middle, taken, read⟩ := bind_eq_ok.mp read
      obtain ⟨operands, behind, followed, read⟩ := bind_eq_ok.mp read
      obtain ⟨⟨⟩, last, closed, read⟩ := bind_eq_ok.mp read
      cases read
      obtain ⟨first, rfl, isPlain⟩ := (plain_reads scope).sound taken
      obtain ⟨rest, rfl, others⟩ := phraseIH .operands followed
      obtain ⟨right, rfl, isRight⟩ := rightParen_eq_ok.mp closed
      refine ⟨left :: first ++ rest ++ [right], ?_, .foldedPlain isLeft isPlain others isRight⟩
      simp [prepend]

theorem foldedOperands_sound (phraseIH : PhraseSound fuel)
    (read : foldedOperands (fuel + 1) scope stream = .ok (code, after)) :
    ∃ tokens, stream = after.prepend tokens ∧ Derives .operands scope tokens code := by
  rw [foldedOperands] at read
  obtain ⟨_, _, shown, read⟩ := bind_eq_ok.mp read
  cases shown
  split at read
  · obtain ⟨first, middle, begun, read⟩ := bind_eq_ok.mp read
    obtain ⟨others, last, followed, read⟩ := bind_eq_ok.mp read
    cases read
    obtain ⟨front, rfl, derived⟩ := phraseIH .folded begun
    obtain ⟨back, rfl, rest⟩ := phraseIH .operands followed
    exact ⟨front ++ back, (prepend_append _ _ _).symm, .operand derived rest⟩
  · cases read
    exact ⟨[], rfl, .noOperand⟩

theorem phraseSound (fuel : Nat) : PhraseSound fuel ∧ BlockSound fuel := by
  induction fuel with
  | zero =>
      constructor
      · intro phrase scope stream code after read
        cases phrase <;> cases read
      · intro scope kind stream label code after shown read
        cases read
  | succ fuel ih =>
      obtain ⟨phraseIH, blockIH⟩ := ih
      refine ⟨?_, blockSound_succ phraseIH⟩
      intro phrase scope stream code after read
      cases phrase with
      | sequence => exact sequence_sound phraseIH read
      | instruction => exact instruction_sound phraseIH blockIH read
      | folded => exact folded_sound phraseIH blockIH read
      | operands => exact foldedOperands_sound phraseIH read

end Reader

namespace TokenStream

theorem Clear.of_endsSequence {stream : TokenStream}
    (ended : stream.current.kind.endsSequence = true) : stream.Clear := by
  apply Clear.of_kind <;> revert ended <;> generalize stream.current.kind = kind <;>
    cases kind <;> simp [TokenKind.endsSequence, TokenKind.identifier?]

end TokenStream

theorem Opening.word_first {kind : BlockKind} {tokens : List Token} {label : Option String}
    {span : Source.Span} (opening : Opening kind tokens label span) :
    ∃ word rest, tokens = word :: rest ∧ word.kind = .keyword kind.keyword := by
  obtain ⟨opened, -, -⟩ := opening
  exact ⟨_, _, rfl, opened⟩

theorem Closing.word_first {label : Option String} {tokens : List Token}
    (closing : Closing label tokens) :
    ∃ word rest, tokens = word :: rest ∧ word.kind = .keyword .blockEnd := by
  cases closing with
  | short ended => exact ⟨_, _, rfl, ended⟩
  | repeated ended => exact ⟨_, _, rfl, ended⟩

namespace Derives

variable {phrase : Phrase} {scope : Scope} {tokens : List Token} {code : List Instruction}

/-- A phrase leaves the stream clear in front of it. -/
theorem clear (derived : Derives phrase scope tokens code) {after : TokenStream}
    (behind : after.Clear) : (after.prepend tokens).Clear := by
  induction derived generalizing after with
  | done => exact behind
  | noOperand => exact behind
  | next _ _ instructionIH sequenceIH =>
      rw [prepend_append]
      exact instructionIH (sequenceIH behind)
  | operand _ _ foldedIH operandsIH =>
      rw [prepend_append]
      exact foldedIH (operandsIH behind)
  | plain isPlain =>
      obtain ⟨kind, -⟩ := isPlain
      exact .of_kind (by simp [kind, TokenKind.identifier?]) (by simp [kind])
  | block opening =>
      obtain ⟨word, rest, rfl, kind⟩ := opening.word_first
      exact .of_kind (by simp [kind, TokenKind.identifier?]) (by simp [kind])
  | folded _ foldedIH => exact foldedIH behind
  | @foldedBlock _ kind _ _ _ _ _ _ _ opened opening =>
      obtain ⟨word, rest, rfl, isWord⟩ := opening.word_first
      exact .of_group opened isWord (by cases kind <;> decide)
  | foldedPlain opened isPlain =>
      obtain ⟨kind, immediate⟩ := isPlain
      obtain ⟨isInstruction, -⟩ := Reader.isInstruction_of_immediate _ immediate
      refine .of_group opened kind ⟨?_, ?_, ?_⟩ <;> rintro rfl <;> cases isInstruction

/-- An instruction starts with a token that ends no sequence, and a folded one
with a parenthesis. -/
theorem first_token (derived : Derives phrase scope tokens code) :
    match phrase with
    | .instruction => ∃ token rest, tokens = token :: rest ∧ token.kind.endsSequence = false
    | .folded => ∃ token rest, tokens = token :: rest ∧ token.kind = .leftParen
    | _ => True := by
  induction derived with
  | done | noOperand | next | operand => trivial
  | @plain _ _ _ isPlain =>
      obtain @⟨word, opcode, _, _, kind, immediate⟩ := isPlain
      obtain ⟨isInstruction, -⟩ := Reader.isInstruction_of_immediate _ immediate
      refine ⟨word, _, rfl, ?_⟩
      rw [kind]
      cases opcode <;> first | rfl | cases isInstruction
  | @block _ kind _ _ _ _ _ _ opening =>
      obtain ⟨word, rest, rfl, isWord⟩ := opening.word_first
      refine ⟨word, _, rfl, ?_⟩
      rw [isWord]
      cases kind <;> rfl
  | folded _ ih =>
      obtain ⟨token, rest, rfl, opened⟩ := ih
      exact ⟨token, rest, rfl, by rw [opened]; rfl⟩
  | foldedBlock opened => exact ⟨_, _, rfl, opened⟩
  | foldedPlain opened => exact ⟨_, _, rfl, opened⟩

end Derives

namespace Reader

variable {fuel : Nat} {scope : Scope} {after : TokenStream}

theorem unnamed_of_resultGroups {groups : List Token} {types : List (List ValueType)}
    (results : ResultGroups groups types) (unnamed : after.current.kind.identifier? = none) :
    (after.prepend groups).current.kind.identifier? = none := by
  cases results with
  | nil => exact unnamed
  | cons item =>
      obtain ⟨opened, -, -, -⟩ := item
      simp [opened, TokenKind.identifier?]

/-- A block is read up to the end of its body, if its body is. -/
theorem openBlock_complete {kind : BlockKind} {head inner : List Token} {label : Option String}
    {span : Source.Span} {body : List Instruction} (opening : Opening kind head label span)
    (read : sequence fuel (scope.enter label) (after.prepend inner) = .ok (body, after))
    (clear : (after.prepend inner).Clear) :
    openBlock (fuel + 1) scope kind (after.prepend (head ++ inner)) =
      .ok ((label, .structured kind label body span), after) := by
  obtain @⟨word, name, groups, _, types, opened, named, results⟩ := opening
  have moved : (after.prepend (word :: name ++ groups ++ inner)).advance =
      ((after.prepend inner).prepend groups).prepend name := by
    have stepped := advance_prepend_of_not_end (after.prepend (name ++ groups ++ inner))
      (show word.isEnd = false by simp [Token.isEnd, opened])
    rw [← prepend_append, ← prepend_append]
    exact stepped
  have taken : identifier? (((after.prepend inner).prepend groups).prepend name) =
      .ok (label, (after.prepend inner).prepend groups) :=
    identifier?_eq_ok.mpr ⟨name, rfl, named, fun _ => unnamed_of_resultGroups results clear.unnamed⟩
  have resulted := results_reads.complete (after.prepend inner) ⟨types, results, rfl⟩
    clear.not_results
  refine bind_eq_ok.mpr ⟨_, _, rfl, ?_⟩
  rw [moved]
  exact bind_eq_ok.mpr ⟨_, _, taken, bind_eq_ok.mpr ⟨_, _, resulted, bind_eq_ok.mpr
    ⟨_, _, read, rfl⟩⟩⟩

theorem sequence_next {stream middle : TokenStream} {first others : List Instruction}
    (goesOn : stream.current.kind.endsSequence = false)
    (begun : instruction fuel scope stream = .ok (first, middle))
    (followed : sequence fuel scope middle = .ok (others, after)) :
    sequence (fuel + 1) scope stream = .ok (first ++ others, after) := by
  simp [sequence, goesOn, begun, followed]

theorem foldedOperands_next {stream middle : TokenStream} {first others : List Instruction}
    (opens : stream.atLeftParen = true)
    (begun : folded fuel scope stream = .ok (first, middle))
    (followed : foldedOperands fuel scope middle = .ok (others, after)) :
    foldedOperands (fuel + 1) scope stream = .ok (first ++ others, after) := by
  simp [foldedOperands, opens, begun, followed]

theorem instruction_plain {tokens : List Token} {code : Instruction}
    (isPlain : Plain scope tokens code) (clear : after.Clear) :
    instruction (fuel + 1) scope (after.prepend tokens) = .ok ([code], after) := by
  have taken := (plain_reads scope).complete after isPlain clear
  obtain @⟨word, opcode, rest, operand, kind, immediate⟩ := isPlain
  obtain ⟨-, unstructured⟩ := isInstruction_of_immediate scope immediate
  have flat : (after.prepend (word :: rest)).atLeftParen = false := by simp [atLeftParen, kind]
  have noBlock : word.kind.blockKind? = none := by rw [kind]; exact unstructured
  simp [instruction, flat, noBlock, taken]

theorem instruction_folded {stream : TokenStream} {code : List Instruction}
    (opens : stream.atLeftParen = true) (read : folded fuel scope stream = .ok (code, after)) :
    instruction (fuel + 1) scope stream = .ok (code, after) := by
  simp [instruction, opens, read]

theorem instruction_block {kind : BlockKind} {label : Option String} {code : Instruction}
    {stream : TokenStream} {last : List Token}
    (shown : stream.current.kind = .keyword kind.keyword)
    (opened : openBlock fuel scope kind stream = .ok ((label, code), after.prepend last))
    (closing : Closing label last) (clear : after.Clear) :
    instruction (fuel + 1) scope stream = .ok ([code], after) := by
  have flat : stream.atLeftParen = false := by simp [atLeftParen, shown]
  have isBlock := TokenKind.blockKind?_eq_some.mpr shown
  obtain ⟨word, name, rfl, ended⟩ := closing.word_first
  have isEnd := keyword_eq_ok.mpr ⟨word, (rfl : _ = (after.prepend name).prepend _), ended⟩
  have closed := closingLabel_complete closing clear.unnamed
  rw [← prepend_cons] at isEnd
  simp [instruction, flat, isBlock, opened, isEnd, closed]

theorem folded_block {kind : BlockKind} {label : Option String} {code : Instruction}
    {stream : TokenStream} {left right : Token} (opens : left.kind = .leftParen)
    (shown : stream.current.kind = .keyword kind.keyword)
    (opened : openBlock fuel scope kind stream = .ok ((label, code), after.prepend [right]))
    (closes : right.kind = .rightParen) :
    folded (fuel + 1) scope (stream.prepend [left]) = .ok ([code], after) := by
  have isLeft := leftParen_eq_ok.mpr ⟨left, (rfl : _ = stream.prepend _), opens⟩
  have isRight := rightParen_eq_ok.mpr ⟨right, (rfl : _ = after.prepend _), closes⟩
  have isBlock := TokenKind.blockKind?_eq_some.mpr shown
  simp [folded, isLeft, isBlock, opened, isRight]

theorem folded_plain {first : List Token} {code : Instruction} {operands : List Instruction}
    {stream : TokenStream} {left right : Token} (opens : left.kind = .leftParen)
    (isPlain : Plain scope first code) (clear : stream.Clear)
    (followed : foldedOperands fuel scope stream = .ok (operands, after.prepend [right]))
    (closes : right.kind = .rightParen) :
    folded (fuel + 1) scope (stream.prepend (left :: first)) = .ok (operands ++ [code], after) := by
  have taken := (plain_reads scope).complete stream isPlain clear
  obtain @⟨word, opcode, rest, operand, kind, immediate⟩ := isPlain
  obtain ⟨-, unstructured⟩ := isInstruction_of_immediate scope immediate
  have noBlock : word.kind.blockKind? = none := by rw [kind]; exact unstructured
  have isLeft := leftParen_eq_ok.mpr
    ⟨left, (rfl : _ = (stream.prepend (word :: rest)).prepend _), opens⟩
  have isRight := rightParen_eq_ok.mpr ⟨right, (rfl : _ = after.prepend _), closes⟩
  rw [prepend_cons]
  simp [folded, isLeft, noBlock, taken, followed, isRight]

end Reader

open Reader in
/-- Every phrase is read back by its reader, given enough fuel. -/
theorem Derives.read {phrase : Phrase} {scope : Scope} {tokens : List Token}
    {code : List Instruction} (derived : Derives phrase scope tokens code) {fuel : Nat}
    {after : TokenStream} (enough : phrase.fuel tokens.length ≤ fuel)
    (follows : phrase.Follows after) :
    phrase.reader fuel scope (after.prepend tokens) = .ok (code, after) := by
  induction derived generalizing fuel after with
  | done =>
      obtain ⟨fuel, rfl⟩ : ∃ less, fuel = less + 1 := Nat.exists_eq_add_of_le' enough
      have ended : after.current.kind.endsSequence = true := follows
      simp [Phrase.reader, Reader.sequence, ended]
  | noOperand =>
      obtain ⟨fuel, rfl⟩ : ∃ less, fuel = less + 1 := Nat.exists_eq_add_of_le' enough
      have ended : after.atLeftParen = false := follows
      simp [Phrase.reader, foldedOperands, ended]
  | next derived others instructionIH sequenceIH =>
      obtain ⟨token, tail, rfl, goesOn⟩ := derived.first_token
      simp only [Phrase.fuel, List.length_append, List.length_cons]
        at enough instructionIH sequenceIH
      obtain ⟨fuel, rfl⟩ : ∃ less, fuel = less + 1 := Nat.exists_eq_add_of_le' (by omega)
      rw [prepend_append]
      refine sequence_next goesOn (instructionIH (by omega) ?_) (sequenceIH (by omega) follows)
      exact others.clear (.of_endsSequence follows)
  | operand derived others foldedIH operandsIH =>
      obtain ⟨token, tail, rfl, opened⟩ := derived.first_token
      simp only [Phrase.fuel, List.length_append, List.length_cons] at enough foldedIH operandsIH
      obtain ⟨fuel, rfl⟩ : ∃ less, fuel = less + 1 := Nat.exists_eq_add_of_le' (by omega)
      rw [prepend_append]
      refine foldedOperands_next ?_ (foldedIH (by omega) trivial) (operandsIH (by omega) follows)
      simp [atLeftParen, opened]
  | plain isPlain =>
      obtain ⟨token, tail, rfl, -⟩ := (Derives.plain isPlain).first_token
      simp only [Phrase.fuel, List.length_cons] at enough
      obtain ⟨fuel, rfl⟩ : ∃ less, fuel = less + 1 := Nat.exists_eq_add_of_le' (by omega)
      exact instruction_plain isPlain follows
  | folded derived foldedIH =>
      obtain ⟨token, tail, rfl, opened⟩ := derived.first_token
      simp only [Phrase.fuel, List.length_cons] at enough foldedIH
      obtain ⟨fuel, rfl⟩ : ∃ less, fuel = less + 1 := Nat.exists_eq_add_of_le' (by omega)
      exact instruction_folded (by simp [atLeftParen, opened]) (foldedIH (by omega) trivial)
  | block opening inner closing sequenceIH =>
      obtain ⟨word, tail, rfl, shown⟩ := opening.word_first
      obtain ⟨last, name, rfl, ended⟩ := closing.word_first
      simp only [Phrase.fuel, List.length_append, List.length_cons] at enough sequenceIH
      obtain ⟨fuel, rfl⟩ : ∃ less, fuel = less + 2 := Nat.exists_eq_add_of_le' (by omega)
      have stops : (after.prepend (last :: name)).current.kind.endsSequence = true := by
        rw [current_prepend_cons, ended]
        rfl
      rw [prepend_append]
      refine instruction_block shown ?_ closing follows
      exact openBlock_complete opening (sequenceIH (by omega) stops)
        (inner.clear (.of_endsSequence stops))
  | @foldedBlock _ _ left right _ _ _ _ _ opened opening inner closed sequenceIH =>
      obtain ⟨word, tail, rfl, shown⟩ := opening.word_first
      simp only [Phrase.fuel, List.length_append, List.length_cons] at enough sequenceIH
      obtain ⟨fuel, rfl⟩ : ∃ less, fuel = less + 2 := Nat.exists_eq_add_of_le' (by omega)
      have stops : (after.prepend [right]).current.kind.endsSequence = true := by
        rw [current_prepend_cons, closed]
        rfl
      rw [prepend_append, List.cons_append, prepend_cons]
      exact folded_block opened shown (openBlock_complete opening (sequenceIH (by omega) stops)
        (inner.clear (.of_endsSequence stops))) closed
  | @foldedPlain _ left right first rest _ _ opened isPlain others closed operandsIH =>
      simp only [Phrase.fuel, List.length_append, List.length_cons] at enough operandsIH
      obtain ⟨fuel, rfl⟩ : ∃ less, fuel = less + 1 := Nat.exists_eq_add_of_le' (by omega)
      have stops : (after.prepend [right]).current.kind.endsSequence = true := by
        rw [current_prepend_cons, closed]
        rfl
      rw [prepend_append, prepend_append]
      refine folded_plain opened isPlain (others.clear (.of_endsSequence stops)) ?_ closed
      exact operandsIH (by omega) (by simp [Phrase.Follows, atLeftParen, closed])

namespace Reader

/-- Tokens in front of a token that ends a sequence are read as a sequence of
instructions exactly if the grammar derives these instructions from them.  The
fuel that bodies are read with is always enough for this. -/
theorem sequence_iff_derives (scope : Scope) (tokens : List Token) (after : TokenStream)
    (code : List Instruction) (fuel : Nat)
    (stops : after.current.kind.endsSequence = true)
    (enough : 3 * (tokens.length + 1) ≤ fuel) :
    sequence fuel scope (after.prepend tokens) = .ok (code, after) ↔
      Derives .sequence scope tokens code := by
  constructor
  · intro read
    obtain ⟨taken, same, derived⟩ := (phraseSound fuel).1 .sequence read
    rwa [prepend_inj.mp same]
  · intro derived
    refine derived.read ?_ stops
    simp only [Phrase.fuel]
    omega

/-- The theorem applied to `block $l block local.get $x br $l end end`, where the
second variable is `$x`, and to `br $m`, which is not read inside the block `$l`
alone and hence not derived. -/
theorem sequence_iff_derives_labelled :
    let scope : Scope := ⟨.empty, .ofParams [⟨.i32, none, 0⟩, ⟨.i32, some "x", 0⟩] [], []⟩
    sequence 30 scope
        (TokenStream.prepend [⟨.keyword .block, "block", .origin⟩,
          ⟨.identifier "l", "$l", .origin⟩, ⟨.keyword .block, "block", .origin⟩,
          ⟨.keyword .localGet, "local.get", .origin⟩, ⟨.identifier "x", "$x", .origin⟩,
          ⟨.keyword .br, "br", .origin⟩, ⟨.identifier "l", "$l", .origin⟩,
          ⟨.keyword .blockEnd, "end", .origin⟩, ⟨.keyword .blockEnd, "end", .origin⟩]
          ⟨[], .origin⟩) =
      .ok ([.structured .block (some "l") [.structured .block none
        [.plain .localGet (some (.index 1)) .origin, .plain .br (some (.index 1)) .origin]
        .origin] .origin], ⟨[], .origin⟩) ∧
    sequence 9 { scope with labels := [some "l"] }
        (TokenStream.prepend [⟨.keyword .br, "br", .origin⟩, ⟨.identifier "m", "$m", .origin⟩]
          ⟨[], .origin⟩) =
      .error ⟨.undefined .label (.name "m"), .origin⟩ ∧
    ∀ code, ¬ Derives .sequence { scope with labels := [some "l"] }
      [⟨.keyword .br, "br", .origin⟩, ⟨.identifier "m", "$m", .origin⟩] code := by
  intro scope
  refine ⟨?_, rfl, ?_⟩
  · have variableRead : RefersTo scope.frame.names ⟨.identifier "x", "$x", .origin⟩ 1 :=
      .name rfl (Frame.indexOf?_eq_some.mp rfl)
    have labelRead : RefersTo [none, some "l"] ⟨.identifier "l", "$l", .origin⟩ 1 :=
      .name rfl (findIdx?_name_eq_some.mp rfl)
    exact (sequence_iff_derives scope _ _ _ _ rfl (by decide)).mpr
      (.next (.block (.mk rfl (.named rfl) .nil)
        (.next (.block (.mk rfl .anonymous .nil)
          (.next (.plain (.mk rfl (.localVariable (by decide) ⟨_, rfl, variableRead⟩)))
            (.next (.plain (.mk rfl (.label (by decide) ⟨_, rfl, labelRead⟩))) .done))
          (.short rfl)) .done)
        (.short rfl)) .done)
  · intro code derived
    have read := (sequence_iff_derives _ _ ⟨[], .origin⟩ _ 9 rfl (by decide)).mpr derived
    cases read

end Reader

end WatMachine
