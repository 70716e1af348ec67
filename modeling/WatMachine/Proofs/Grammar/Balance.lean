import WatMachine.Proofs.Grammar.Phrases

/-!
# Balanced parentheses

Every phrase of the grammar has balanced parentheses, so that a field of a
module ends where skipping its group ends, whatever reads it.  Groups that
follow each other can be told apart in one way only.
-/

namespace WatMachine

open TokenStream

/-- A group: balanced tokens between two parentheses. -/
inductive IsGroup : List Token → Prop where
  | mk {left right : Token} {inner : List Token} (opened : left.kind = .leftParen)
      (within : Balanced inner) (closed : right.kind = .rightParen) :
      IsGroup (left :: inner ++ [right])

theorem IsGroup.balanced {tokens : List Token} (group : IsGroup tokens) : Balanced tokens := by
  obtain ⟨opened, within, closed⟩ := group
  exact .group opened within closed .nil

namespace TokenKind

/-- Whether a token is neither a parenthesis nor the end of input. -/
def isAtom : TokenKind → Bool
  | leftParen | rightParen | endOfInput => false
  | _ => true

end TokenKind

theorem Balanced.atom {token : Token} (kind : token.kind.isAtom = true) : Balanced [token] := by
  refine .other ?_ ?_ ?_ .nil <;> intro same <;> rw [same] at kind <;> cases kind

theorem Balanced.isGroup {left head right : Token} {inner : List Token} {word : Keyword}
    (within : Balanced inner) (isLeft : left.kind = .leftParen)
    (isHead : head.kind = .keyword word) (isRight : right.kind = .rightParen) :
    IsGroup (left :: head :: inner ++ [right]) := by
  have headed : Balanced [head] := .atom (by rw [isHead]; rfl)
  exact .mk isLeft (headed.append within) isRight

section Languages

variable {α : Type} {language : List Token → α → Prop} {tokens : List Token} {value : α}

theorem Group.isGroup {word : Keyword}
    (balanced : ∀ {tokens value}, language tokens value → Balanced tokens)
    (group : Group word language tokens value) : IsGroup tokens := by
  obtain ⟨opened, headed, within, closed⟩ := group
  exact (balanced within).isGroup opened headed closed

theorem Many.balanced {values : List α}
    (balanced : ∀ {tokens value}, language tokens value → Balanced tokens)
    (items : Many language tokens values) : Balanced tokens := by
  induction items with
  | nil => exact .nil
  | cons item _ ih => exact (balanced item).append ih

end Languages

theorem Named.balanced {tokens : List Token} {label : Option String}
    (named : Named tokens label) : Balanced tokens := by
  cases named with
  | anonymous => exact .nil
  | named kind => exact .atom (by rw [kind]; rfl)

theorem TypeWord.balanced {tokens : List Token} {type : ValueType}
    (word : TypeWord tokens type) : Balanced tokens := by
  obtain ⟨token, rfl, kind⟩ := word
  exact .atom (by rw [kind]; rfl)

theorem RefersTo.isAtom {names : List (Option String)} {token : Token} {index : Nat}
    (refers : RefersTo names token index) : token.kind.isAtom = true := by
  cases refers with
  | number kind => rw [kind]; rfl
  | name kind => rw [kind]; rfl

theorem Reference.balanced {names : List (Option String)} {tokens : List Token} {index : Nat}
    (reference : Reference names tokens index) : Balanced tokens := by
  obtain ⟨token, rfl, refers⟩ := reference
  exact .atom refers.isAtom

theorem ResultGroups.balanced {tokens : List Token} {types : List (List ValueType)}
    (results : ResultGroups tokens types) : Balanced tokens :=
  Many.balanced (fun group => (group.isGroup (Many.balanced TypeWord.balanced)).balanced) results

theorem SkippedGroup.balanced {tokens : List Token} {value : Unit}
    (group : SkippedGroup tokens value) : Balanced tokens := by
  rcases group with group | group
  · exact (group.isGroup fun balanced => balanced).balanced
  · exact (group.isGroup fun balanced => balanced).balanced

theorem Immediate.balanced {scope : Scope} {opcode : Keyword} {tokens : List Token}
    {operand : Option Operand} (immediate : Immediate scope opcode tokens operand) :
    Balanced tokens := by
  cases immediate with
  | call reference => exact reference.balanced
  | localVariable _ reference => exact reference.balanced
  | global _ reference => exact reference.balanced
  | label _ reference => exact reference.balanced
  | indirect called others =>
      refine Balanced.append ?_ (Many.balanced SkippedGroup.balanced others)
      cases called with
      | omitted => exact .nil
      | written group => exact (group.isGroup Reference.balanced).balanced
  | word kind => exact .atom (by rw [kind]; rfl)
  | literal _ kind => exact .atom (by rw [kind]; rfl)
  | nothing => exact .nil

theorem Plain.balanced {scope : Scope} {tokens : List Token} {code : Instruction}
    (isPlain : Plain scope tokens code) : Balanced tokens := by
  obtain ⟨kind, immediate⟩ := isPlain
  exact (Balanced.atom (by rw [kind]; rfl)).append immediate.balanced

theorem Opening.balanced {kind : BlockKind} {tokens : List Token} {label : Option String}
    {span : Source.Span} (opening : Opening kind tokens label span) : Balanced tokens := by
  obtain ⟨opened, named, results⟩ := opening
  exact ((Balanced.atom (by rw [opened]; rfl)).append named.balanced).append results.balanced

theorem Closing.balanced {label : Option String} {tokens : List Token}
    (closing : Closing label tokens) : Balanced tokens := by
  cases closing with
  | short ended => exact .atom (by rw [ended]; rfl)
  | repeated ended named =>
      exact (Balanced.atom (by rw [ended]; rfl)).append (.atom (by rw [named]; rfl))

theorem Derives.balanced {phrase : Phrase} {scope : Scope} {tokens : List Token}
    {code : List Instruction} (derived : Derives phrase scope tokens code) : Balanced tokens := by
  induction derived with
  | done => exact .nil
  | noOperand => exact .nil
  | next _ _ first rest => exact first.append rest
  | operand _ _ first rest => exact first.append rest
  | plain isPlain => exact isPlain.balanced
  | block opening _ closing inner => exact (opening.balanced.append inner).append closing.balanced
  | folded _ inner => exact inner
  | foldedBlock opened opening _ closed inner =>
      exact .group opened (opening.balanced.append inner) closed .nil
  | foldedPlain opened isPlain _ closed others =>
      exact .group opened (isPlain.balanced.append others) closed .nil

/-- The end of a group is found by skipping it. -/
theorem IsGroup.closeGroups_tail {group : List Token} (isGroup : IsGroup group)
    (finish : Source.Span) (rest : List Token) :
    closeGroups finish 0 (group ++ rest).tail = .ok rest := by
  obtain ⟨opened, within, closed⟩ := isGroup
  rw [List.append_assoc, List.cons_append, List.tail_cons, closeGroups_append within,
    List.cons_append, closeGroups_right_zero _ closed, List.nil_append]

/-- Where a group ends does not depend on what follows it. -/
theorem IsGroup.unique {first second rest others : List Token} (group : IsGroup first)
    (other : IsGroup second) (same : first ++ rest = second ++ others) :
    first = second ∧ rest = others := by
  have ends := group.closeGroups_tail .origin rest
  rw [same, other.closeGroups_tail] at ends
  cases ends
  exact ⟨List.append_cancel_right same, rfl⟩

theorem IsGroup.prepend_unique {first second : List Token} {after behind : TokenStream}
    (group : IsGroup first) (other : IsGroup second)
    (same : after.prepend first = behind.prepend second) : first = second ∧ after = behind := by
  obtain ⟨ahead, finish⟩ := after
  obtain ⟨rest, last⟩ := behind
  simp only [prepend, TokenStream.mk.injEq] at same
  obtain ⟨rfl, rfl⟩ := group.unique other same.1
  exact ⟨rfl, by rw [same.2]⟩

theorem IsGroup.first_token {group : List Token} (isGroup : IsGroup group) :
    ∃ left rest, group = left :: rest ∧ left.kind = .leftParen := by
  obtain ⟨opened, -, -⟩ := isGroup
  exact ⟨_, _, rfl, opened⟩

/-- Groups that show where they start can be told apart in one way only, in
front of something else. -/
theorem shownGroups_unique {here : TokenStream → Bool} {groups others : List (List Token)}
    {after behind : TokenStream}
    (areGroups : ∀ group ∈ groups,
      IsGroup group ∧ ∀ stream : TokenStream, here (stream.prepend group) = true)
    (alsoGroups : ∀ group ∈ others,
      IsGroup group ∧ ∀ stream : TokenStream, here (stream.prepend group) = true)
    (ended : here after = false) (stopped : here behind = false)
    (same : after.prepend groups.flatten = behind.prepend others.flatten) :
    groups = others ∧ after = behind := by
  induction groups generalizing others with
  | nil =>
      cases others with
      | nil => exact ⟨rfl, same⟩
      | cons group others =>
          rw [List.flatten_nil, prepend_nil, List.flatten_cons, prepend_append] at same
          rw [same, (alsoGroups group (by simp)).2] at ended
          cases ended
  | cons group groups ih =>
      cases others with
      | nil =>
          rw [List.flatten_nil, prepend_nil, List.flatten_cons, prepend_append] at same
          rw [← same, (areGroups group (by simp)).2] at stopped
          cases stopped
      | cons other others =>
          obtain ⟨⟨isGroup, -⟩, restGroups⟩ := List.forall_mem_cons.mp areGroups
          obtain ⟨⟨isOther, -⟩, moreGroups⟩ := List.forall_mem_cons.mp alsoGroups
          rw [List.flatten_cons, List.flatten_cons, prepend_append, prepend_append] at same
          obtain ⟨rfl, remaining⟩ := isGroup.prepend_unique isOther same
          obtain ⟨rfl, equal⟩ := ih restGroups moreGroups remaining
          exact ⟨rfl, equal⟩

/-- Groups in front of something else can be told apart in one way only. -/
theorem groups_unique {groups others : List (List Token)} {after behind : TokenStream}
    (areGroups : ∀ group ∈ groups, IsGroup group) (alsoGroups : ∀ group ∈ others, IsGroup group)
    (ended : after.atLeftParen = false) (stopped : behind.atLeftParen = false)
    (same : after.prepend groups.flatten = behind.prepend others.flatten) :
    groups = others ∧ after = behind := by
  have opens {group : List Token} (isGroup : IsGroup group) :
      IsGroup group ∧ ∀ stream : TokenStream, (stream.prepend group).atLeftParen = true := by
    refine ⟨isGroup, fun stream => ?_⟩
    obtain ⟨left, tail, rfl, opened⟩ := isGroup.first_token
    simp [atLeftParen, opened]
  exact shownGroups_unique (fun group member => opens (areGroups group member))
    (fun group member => opens (alsoGroups group member)) ended stopped same

end WatMachine
