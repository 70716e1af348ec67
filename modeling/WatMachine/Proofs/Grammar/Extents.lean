import WatMachine.Proofs.Grammar.Indices

/-!
# Where fields end

A field takes the same tokens in both passes over a module, whatever it is
and whichever reader takes it: those of the balanced group that it opens.  So
the tokens of a module are one group themselves.  Counted from its start, more
parentheses have been opened than closed everywhere inside it, and equally
many at its end.
-/

namespace WatMachine

open TokenStream

/-- The number of groups that some tokens open. -/
def leftParens (tokens : List Token) : Nat :=
  tokens.countP (·.kind == .leftParen)

/-- The number of groups that some tokens close. -/
def rightParens (tokens : List Token) : Nat :=
  tokens.countP (·.kind == .rightParen)

section Counts

variable {token : Token} (tokens : List Token)

theorem parens_of_left (opened : token.kind = .leftParen) :
    leftParens (token :: tokens) = leftParens tokens + 1 ∧
      rightParens (token :: tokens) = rightParens tokens := by
  simp [leftParens, rightParens, opened]

theorem parens_of_right (closed : token.kind = .rightParen) :
    leftParens (token :: tokens) = leftParens tokens ∧
      rightParens (token :: tokens) = rightParens tokens + 1 := by
  simp [leftParens, rightParens, closed]

theorem parens_of_other (left : token.kind ≠ .leftParen) (right : token.kind ≠ .rightParen) :
    leftParens (token :: tokens) = leftParens tokens ∧
      rightParens (token :: tokens) = rightParens tokens := by
  simp [leftParens, rightParens, left, right]

theorem parens_append (front back : List Token) :
    leftParens (front ++ back) = leftParens front + leftParens back ∧
      rightParens (front ++ back) = rightParens front + rightParens back := by
  simp [leftParens, rightParens]

end Counts

namespace Balanced

variable {tokens : List Token}

theorem leftParens_eq (balanced : Balanced tokens) : leftParens tokens = rightParens tokens := by
  induction balanced with
  | nil => rfl
  | other left right _ _ ih =>
      obtain ⟨lefts, rights⟩ := parens_of_other _ left right
      rw [lefts, rights, ih]
  | @group left right inner rest opened _ closed _ innerIH restIH =>
      have outer := parens_of_left (inner ++ right :: rest) opened
      have both := parens_append inner (right :: rest)
      have last := parens_of_right rest closed
      rw [List.cons_append]
      omega

/-- Nothing is closed that has not been opened before. -/
theorem rightParens_le (balanced : Balanced tokens) {front back : List Token}
    (split : tokens = front ++ back) : rightParens front ≤ leftParens front := by
  induction balanced generalizing front back with
  | nil =>
      obtain ⟨rfl, -⟩ := List.append_eq_nil_iff.mp split.symm
      exact Nat.le_refl _
  | @other token rest left right _ _ ih =>
      cases front with
      | nil => exact Nat.le_refl _
      | cons first front =>
          obtain ⟨rfl, tails⟩ : token = first ∧ rest = front ++ back := by simpa using split
          have counted := parens_of_other front left right
          have before := ih tails
          omega
  | @group left right inner rest opened within closed _ innerIH restIH =>
      cases front with
      | nil => exact Nat.le_refl _
      | cons first front =>
          obtain ⟨rfl, tails⟩ : left = first ∧ inner ++ right :: rest = front ++ back := by
            simpa using split
          have outer := parens_of_left front opened
          -- The front ends inside of the group, or behind what it holds.
          rcases List.append_eq_append_iff.mp tails with
            ⟨behind, rfl, shape⟩ | ⟨remaining, rfl, -⟩
          · have whole := within.leftParens_eq
            have both := parens_append inner behind
            cases behind with
            | nil =>
                rw [List.append_nil] at *
                omega
            | cons last behind =>
                obtain ⟨rfl, more⟩ : right = last ∧ rest = behind ++ back := by simpa using shape
                have ended := parens_of_right behind closed
                have after := restIH more
                omega
          · have inside := innerIH rfl
            omega

theorem not_isEnd (balanced : Balanced tokens) : ∀ token ∈ tokens, token.isEnd = false := by
  have other {token : Token} (kind : token.kind ≠ .endOfInput) : token.isEnd = false := by
    simpa [Token.isEnd] using kind
  induction balanced with
  | nil => simp
  | other _ _ inside _ ih => exact List.forall_mem_cons.mpr ⟨other inside, ih⟩
  | group opened _ closed _ innerIH restIH =>
      rw [List.cons_append, List.forall_mem_cons, List.forall_mem_append, List.forall_mem_cons]
      exact ⟨other (by simp [opened]), innerIH, other (by simp [closed]), restIH⟩

end Balanced

namespace IsGroup

variable {group : List Token}

/-- Inside of a group, more has been opened than closed. -/
theorem rightParens_lt (isGroup : IsGroup group) {front : List Token} (inside : front <+: group)
    (some : front ≠ []) (proper : front ≠ group) : rightParens front < leftParens front := by
  obtain ⟨opened, within, closed⟩ := isGroup
  cases front with
  | nil => exact absurd rfl some
  | cons first front =>
      obtain ⟨rfl, shorter⟩ := List.cons_prefix_cons.mp inside
      have outer := parens_of_left front opened
      rcases List.prefix_concat_iff.mp shorter with whole | ⟨back, shape⟩
      · rw [whole] at proper
        exact absurd rfl proper
      · have before := within.rightParens_le shape.symm
        omega

/-- A group in front of a stream is what is skipped. -/
theorem skipGroup_prepend (isGroup : IsGroup group) (rest : TokenStream) :
    Reader.skipGroup (rest.prepend group) = .ok ((), rest) := by
  obtain ⟨opened, within, closed⟩ := isGroup
  exact Reader.skipGroup_eq_ok.mpr ⟨_, _, _, rfl, opened, within, closed⟩

end IsGroup

theorem balanced_flatten {groups : List (List Token)}
    (areGroups : ∀ group ∈ groups, IsGroup group) : Balanced groups.flatten := by
  induction groups with
  | nil => exact .nil
  | cons group groups ih =>
      obtain ⟨isGroup, others⟩ := List.forall_mem_cons.mp areGroups
      exact isGroup.balanced.append (ih others)

namespace TokenStream

/-- Up to the end of input, a stream shows the tokens that it is made of. -/
theorem takeWhile_ofTokens (tokens : List Token) :
    (ofTokens tokens).ahead.takeWhile (!·.isEnd) = tokens.takeWhile (!·.isEnd) := by
  rcases List.eq_nil_or_concat tokens with rfl | ⟨front, last, rfl⟩
  · rfl
  · rw [List.concat_eq_append, ofTokens_concat]
    cases ends : last.isEnd with
    | false => rfl
    | true =>
        rw [if_pos rfl]
        induction front with
        | nil => simp [ends]
        | cons first front ih => simp [List.takeWhile_cons, ih]

/-- Balanced tokens in front of the end of input are what comes before it. -/
theorem takeWhile_of_balanced {tokens : List Token} (balanced : Balanced tokens)
    {rest : TokenStream} (ended : rest.current.isEnd = true) :
    (rest.prepend tokens).ahead.takeWhile (!·.isEnd) = tokens := by
  have all : ∀ token ∈ tokens, (!token.isEnd) = true := by
    intro token inside
    rw [balanced.not_isEnd token inside]
    rfl
  rw [ahead_prepend, List.takeWhile_append_of_pos all]
  obtain ⟨ahead, finish⟩ := rest
  cases ahead with
  | nil => exact List.append_nil _
  | cons token ahead =>
      have isLast : token.isEnd = true := ended
      simp [isLast]

end TokenStream

namespace Module

/-- The tokens of a module up to the end of input are one group. -/
theorem isGroup_of_ofTokens {tokens : List Token} {module : Module}
    (accepted : ofTokens tokens = .ok module) : IsGroup (tokens.takeWhile (!·.isEnd)) := by
  obtain ⟨declarations, rest, run⟩ := ofStream_eq_ok_iff_run.mp accepted
  obtain ⟨left, word, right, name, groups, parts, shape, isLeft, isWord, isName, isRight, ended,
    indexed⟩ := Builder.module_read run
  have fields : Balanced groups.flatten := balanced_flatten indexed.isGroup
  have isGroup := (isName.balanced.append fields).isGroup isLeft isWord isRight
  have whole : left :: word :: name ++ groups.flatten ++ [right] =
      left :: word :: (name ++ groups.flatten) ++ [right] := by
    simp
  rw [← takeWhile_ofTokens, shape, whole, takeWhile_of_balanced isGroup.balanced ended]
  exact isGroup

/-- Fields take balanced groups, the same in both passes.  A field that is read
ends where skipping a group ends, and so do a type definition and every other
field when definitions are declared.  The tokens of a module that is accepted
are one group, up to the end of input: every part that it starts with, unless
it is empty or the whole, has more parentheses that open than such that close,
and the whole has equally many. -/
theorem fields_take_groups :
    (∀ declarations stream part final rest,
      Builder.field declarations stream = .ok ((part, final), rest) →
        Reader.skipGroup stream = .ok ((), rest)) ∧
    (∀ declarations stream definition final rest,
      Builder.typeDefinition declarations stream = .ok ((definition, final), rest) →
        Reader.skipGroup stream = .ok ((), rest)) ∧
    (∀ declarations stream final rest,
      Builder.declareField declarations stream = .ok (((), final), rest) →
        Reader.skipGroup stream = .ok ((), rest)) ∧
    ∀ tokens module, ofTokens tokens = .ok module →
      IsGroup (tokens.takeWhile (!·.isEnd)) ∧
      (∀ front, front <+: tokens.takeWhile (!·.isEnd) → front ≠ [] →
        front ≠ tokens.takeWhile (!·.isEnd) → rightParens front < leftParens front) ∧
      leftParens (tokens.takeWhile (!·.isEnd)) = rightParens (tokens.takeWhile (!·.isEnd)) := by
  refine ⟨?_, ?_, ?_, ?_⟩
  · intro declarations stream part final rest run
    obtain ⟨group, rfl, read⟩ := Builder.field_read run
    exact read.isGroup.skipGroup_prepend rest
  · intro declarations stream definition final rest run
    obtain ⟨group, rfl, isGroup, -⟩ := Builder.typeDefinition_keeps run
    exact isGroup.skipGroup_prepend rest
  · intro declarations stream final rest run
    obtain ⟨group, rfl, isGroup, -⟩ := Builder.declareField_declares run
    exact isGroup.skipGroup_prepend rest
  · intro tokens module accepted
    have isGroup := isGroup_of_ofTokens accepted
    exact ⟨isGroup, fun front => isGroup.rightParens_lt, isGroup.balanced.leftParens_eq⟩

/-- The tokens of `( module ( func ( block ) ) ( type ( func ) ) )`, with more
parentheses behind the end of input. -/
def closedEarly : List Token :=
  [.leftParen, .keyword .moduleForm, .leftParen, .keyword .funcForm, .leftParen, .keyword .block,
    .rightParen, .rightParen, .leftParen, .keyword .typeForm, .leftParen, .keyword .funcForm,
    .rightParen, .rightParen, .rightParen, .endOfInput, .rightParen, .leftParen].map
      fun kind => ⟨kind, "", .origin⟩

theorem fields_take_groups_closedEarly :
    (∃ module, ofTokens closedEarly = .ok module) ∧
      rightParens (closedEarly.take 8) < leftParens (closedEarly.take 8) ∧
      leftParens (closedEarly.take 15) = rightParens (closedEarly.take 15) ∧
      Reader.skipGroup ⟨closedEarly.drop 2, .origin⟩ = .ok ((), ⟨closedEarly.drop 8, .origin⟩) := by
  obtain ⟨module, accepted⟩ : ∃ module, ofTokens closedEarly = .ok module := ⟨_, rfl⟩
  obtain ⟨-, inside, whole⟩ := fields_take_groups.2.2.2 _ _ accepted
  refine ⟨⟨module, accepted⟩, inside _ (by decide) (by decide) (by decide), whole, ?_⟩
  exact fields_take_groups.1 .empty _ _ _ _ rfl

end Module

end WatMachine
