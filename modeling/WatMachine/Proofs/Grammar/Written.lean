import WatMachine.Grammar.Declarations
import WatMachine.Proofs.Grammar.Balance

/-!
# Definitions as groups write them

The definitions of a module can be read off the groups of its fields without
reading what is in them.  Looking ahead at fixed places of a stream shows the
same definition as the group that the stream starts with.
-/

namespace WatMachine

open TokenStream

/-- A definition as a field of a module writes it. -/
structure WrittenDefinition where
  space : IndexSpace
  name : Option String
  /-- Whether a field of the module that is read keeps the definition. -/
  kept : Bool
  deriving Repr, DecidableEq

namespace WrittenDefinition

def leadingName? : List TokenKind → Option String
  | .identifier name :: _ => some name
  | _ => none

/-- The definition that a field with the given tokens writes: a function, a
table, a memory, a global or a segment, or an import of one of the first four.
Only functions and imports are kept. -/
def ofKinds? : List TokenKind → Option WrittenDefinition
  | .leftParen :: .keyword .importForm :: .string _ :: .string _ :: .leftParen ::
      .keyword word :: rest =>
      (ExternalKind.ofKeyword? word).map fun kind => ⟨kind.space, leadingName? rest, true⟩
  | .leftParen :: .keyword word :: rest =>
      (IndexSpace.ofKeyword? word).map fun space => ⟨space, leadingName? rest, space == .function⟩
  | _ => none

def ofGroup? (group : List Token) : Option WrittenDefinition :=
  ofKinds? (group.map Token.kind)

/-- The definitions of a space, in the order of their groups. -/
def ofSpace (space : IndexSpace) (groups : List (List Token)) : List WrittenDefinition :=
  (groups.filterMap ofGroup?).filter (·.space == space)

theorem ofSpace_append (space : IndexSpace) (groups others : List (List Token)) :
    ofSpace space (groups ++ others) = ofSpace space groups ++ ofSpace space others := by
  simp [ofSpace]

theorem ofSpace_cons (space : IndexSpace) (group : List Token) (groups : List (List Token)) :
    ofSpace space (group :: groups) = ofSpace space [group] ++ ofSpace space groups :=
  ofSpace_append space [group] groups

theorem ofSpace_singleton_of_some {group : List Token} {written : WrittenDefinition}
    (found : ofGroup? group = some written) (space : IndexSpace) :
    ofSpace space [group] = if space = written.space then [written] else [] := by
  by_cases same : space = written.space
  · simp [ofSpace, found, same]
  · simp [ofSpace, found, same, Ne.symm same]

theorem ofSpace_singleton_of_none {group : List Token} (nothing : ofGroup? group = none)
    (space : IndexSpace) : ofSpace space [group] = [] := by
  simp [ofSpace, nothing]

variable {left head third : Token} {more : List Token}

theorem leadingName?_cons :
    leadingName? (third.kind :: more.map Token.kind) = third.kind.identifier? := by
  cases third.kind <;> rfl

theorem ofGroup?_of_not_import {word : Keyword} (isLeft : left.kind = .leftParen)
    (isHead : head.kind = .keyword word) (other : word ≠ .importForm) :
    ofGroup? (left :: head :: third :: more) =
      (IndexSpace.ofKeyword? word).map fun space =>
        ⟨space, third.kind.identifier?, space == .function⟩ := by
  simp only [ofGroup?, List.map_cons, isLeft, isHead]
  rw [ofKinds?, leadingName?_cons]
  simp [other]

theorem ofGroup?_of_import {source name opening word : Token} {sourceName importName : String}
    {keyword : Keyword} {kind : ExternalKind} (isLeft : left.kind = .leftParen)
    (isHead : head.kind = .keyword .importForm) (isSource : source.kind = .string sourceName)
    (isName : name.kind = .string importName) (opens : opening.kind = .leftParen)
    (isWord : word.kind = .keyword keyword) (isKind : ExternalKind.ofKeyword? keyword = some kind) :
    ofGroup? (left :: head :: source :: name :: opening :: word :: third :: more) =
      some ⟨kind.space, third.kind.identifier?, true⟩ := by
  simp only [ofGroup?, List.map_cons, isLeft, isHead, isSource, isName, opens, isWord]
  rw [ofKinds?, leadingName?_cons, isKind]
  rfl

theorem ofGroup?_of_no_keyword (isHead : head.kind.keyword? = none) :
    ofGroup? (left :: head :: more) = none := by
  simp only [ofGroup?, List.map_cons]
  unfold ofKinds?
  split <;> simp_all [TokenKind.keyword?]

end WrittenDefinition

open WrittenDefinition

def headWord? (group : List Token) : Option Keyword :=
  group[1]?.bind (·.kind.keyword?)

/-- Whether looking ahead at a group shows the definition that it writes,
whatever follows the group. -/
def IsShown (group : List Token) : Prop :=
  ∀ rest : TokenStream, (rest.prepend group).definition? =
    (ofGroup? group).map fun written => (written.space, written.name)

theorem IsGroup.nth_one {group : List Token} (isGroup : IsGroup group) (rest : TokenStream) :
    ((rest.prepend group).nth 1).kind.keyword? = headWord? group := by
  obtain @⟨left, right, inner, isLeft, within, isRight⟩ := isGroup
  cases inner <;> rfl

/-- A group that is no import writes the definition that its head word says,
and looking ahead shows that definition. -/
theorem IsGroup.written {group : List Token} (isGroup : IsGroup group)
    (other : headWord? group ≠ some .importForm) :
    ∃ name, ofGroup? group = ((headWord? group).bind IndexSpace.ofKeyword?).map
        (fun space => ⟨space, name, space == .function⟩) ∧
      ∀ rest : TokenStream, (rest.prepend group).definition? =
        ((headWord? group).bind IndexSpace.ofKeyword?).map fun space => (space, name) := by
  obtain @⟨left, right, inner, isLeft, within, isRight⟩ := isGroup
  cases inner with
  | nil =>
      refine ⟨none, ?_, fun rest => ?_⟩
      · rw [List.cons_append, List.nil_append, ofGroup?_of_no_keyword (by rw [isRight]; rfl)]
        simp [headWord?, isRight, TokenKind.keyword?]
      · simp [TokenStream.definition?, headWord?, isRight, TokenKind.keyword?]
  | cons head inner =>
      obtain ⟨third, more, shape⟩ : ∃ third more, inner ++ [right] = third :: more :=
        List.exists_cons_of_ne_nil (by simp)
      rw [List.cons_append, List.cons_append, shape] at other ⊢
      cases isHead : head.kind.keyword? with
      | none =>
          refine ⟨none, ?_, fun rest => ?_⟩
          · rw [ofGroup?_of_no_keyword isHead]
            simp [headWord?, isHead]
          · simp [TokenStream.definition?, headWord?, isHead]
      | some word =>
          have different : word ≠ .importForm := by
            simpa [headWord?, isHead] using other
          refine ⟨third.kind.identifier?, ?_, fun rest => ?_⟩
          · rw [ofGroup?_of_not_import isLeft (TokenKind.keyword?_eq_some.mp isHead) different]
            simp [headWord?, isHead]
          · simp only [TokenStream.definition?, nth_succ_prepend_cons, nth_zero_prepend_cons,
              isHead, different, if_false, Option.bind_eq_bind, Option.bind_some, headWord?,
              List.getElem?_cons_succ, List.getElem?_cons_zero]
            cases IndexSpace.ofKeyword? word <;> rfl

/-- Looking ahead in an import shows the kind and name in its inner group. -/
theorem definition?_of_import {left head source name opening word third : Token}
    {more : List Token} {keyword : Keyword} {kind : ExternalKind}
    (isHead : head.kind = .keyword .importForm) (isWord : word.kind = .keyword keyword)
    (isKind : ExternalKind.ofKeyword? keyword = some kind) (rest : TokenStream) :
    (rest.prepend
        (left :: head :: source :: name :: opening :: word :: third :: more)).definition? =
      some (kind.space, third.kind.identifier?) := by
  have isSpace : IndexSpace.ofKeyword? keyword = some kind.space := by
    cases keyword <;> cases isKind <;> rfl
  simp [TokenStream.definition?, isHead, isWord, TokenKind.keyword?, isSpace]

end WatMachine
