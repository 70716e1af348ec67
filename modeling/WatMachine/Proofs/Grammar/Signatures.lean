import WatMachine.Proofs.Grammar.Bodies
import WatMachine.Proofs.Grammar.Declared

/-!
# Parameters, locals and results are read by their grammar

A group of bindings lists types, or names one variable and gives its type.
Groups of one head word are read up to the first group of another, so that the
groups in front of a function body can be told apart by their head words.
-/

namespace WatMachine

open TokenStream Reader

/-- The inside of a group of bindings. -/
inductive Binding : List Token → List LocalVariable → Prop where
  | anonymous {tokens : List Token} {types : List ValueType} (words : Many TypeWord tokens types) :
      Binding tokens (types.map .anonymous)
  | named {name word : Token} {text : String} {type : ValueType}
      (named : name.kind = .identifier text) (typed : word.kind = .keyword type.keyword) :
      Binding [name, word] [{ type, name := some text }]

def BindingGroups (word : Keyword) : List Token → List (List LocalVariable) → Prop :=
  Many (Group word Binding)

theorem Binding.balanced {tokens : List Token} {locals : List LocalVariable}
    (binding : Binding tokens locals) : Balanced tokens := by
  cases binding with
  | anonymous words => exact words.balanced TypeWord.balanced
  | named named typed =>
      exact (Balanced.atom (by rw [named]; rfl)).append (.atom (by rw [typed]; rfl))

theorem BindingGroups.balanced {word : Keyword} {tokens : List Token}
    {groups : List (List LocalVariable)} (bound : BindingGroups word tokens groups) :
    Balanced tokens :=
  Many.balanced (fun group => (group.isGroup Binding.balanced).balanced) bound

namespace TokenKind

theorem isValueType_keyword (type : ValueType) : (keyword type.keyword).isValueType = true := by
  cases type <;> rfl

end TokenKind

namespace Reader

theorem groupBindings_apply (stream : TokenStream) :
    groupBindings stream =
      if atAbbreviation stream then
        (valueTypes >>= fun types => pure (types.map LocalVariable.anonymous)) stream
      else
        (identifier? >>= fun name => fun stream =>
          if name.isSome || stream.atValueType then
            (valueType >>= fun type => pure [{ type, name }]) stream
          else .ok ([], stream)) stream := by
  rw [groupBindings, bind_apply, get_apply]
  dsimp only
  split
  · rfl
  · rw [bind_apply, bind_apply]
    cases identifier? stream with
    | error error => rfl
    | ok result =>
        dsimp only
        rw [bind_apply, get_apply]
        dsimp only
        split <;> rfl

theorem groupBindings_sound {stream after : TokenStream} {locals : List LocalVariable}
    (read : groupBindings stream = .ok (locals, after)) :
    ∃ tokens, stream = after.prepend tokens ∧ Binding tokens locals := by
  rw [groupBindings_apply] at read
  split at read
  · obtain ⟨types, middle, taken, ended⟩ := bind_eq_ok.mp read
    cases ended
    obtain ⟨tokens, shape, words⟩ := valueTypes_reads.sound taken
    exact ⟨tokens, shape, .anonymous words⟩
  · obtain ⟨label, behind, labelled, rest⟩ := bind_eq_ok.mp read
    obtain ⟨front, rfl, isName, -⟩ := identifier?_eq_ok.mp labelled
    split at rest
    · obtain ⟨type, last, typed, ended⟩ := bind_eq_ok.mp rest
      cases ended
      obtain ⟨word, rfl, isType⟩ := valueType_eq_ok.mp typed
      cases isName with
      | anonymous => exact ⟨[word], rfl, .anonymous (.cons ⟨word, rfl, isType⟩ .nil)⟩
      | @named name text isName => exact ⟨[name, word], rfl, .named isName isType⟩
    · rename_i nothing
      cases rest
      cases isName with
      | anonymous => exact ⟨[], rfl, .anonymous .nil⟩
      | named => simp at nothing

/-- Inside a group, bindings are read up to the closing parenthesis. -/
theorem groupBindings_complete {tokens : List Token} {locals : List LocalVariable}
    (binding : Binding tokens locals) {after : TokenStream}
    (closed : after.current.kind = .rightParen) :
    groupBindings (after.prepend tokens) = .ok (locals, after) := by
  have untyped : after.atValueType = false := by
    rw [atValueType, closed]
    rfl
  rw [groupBindings_apply]
  cases binding with
  | named named typed =>
      rename_i name word text type
      have short : atAbbreviation (after.prepend [name, word]) = false := by
        simp [atAbbreviation, atValueType, named, TokenKind.isValueType, TokenKind.keyword?]
      have labelled : identifier? (after.prepend [name, word]) =
          .ok (some text, after.prepend [word]) :=
        identifier?_eq_ok.mpr ⟨[name], rfl, .named named, fun empty => by cases empty⟩
      have read : valueType (after.prepend [word]) = .ok (type, after) :=
        valueType_eq_ok.mpr ⟨word, rfl, typed⟩
      simp [short, labelled, read]
  | anonymous words =>
      cases words with
      | nil =>
          have short : atAbbreviation after = false := by simp [atAbbreviation, untyped]
          have unnamed : identifier? after = .ok (none, after) :=
            identifier?_eq_ok.mpr ⟨[], rfl, .anonymous, fun _ => by rw [closed]; rfl⟩
          simp [short, unnamed, untyped]
      | cons item others =>
          obtain ⟨word, rfl, isType⟩ := item
          cases others with
          | nil =>
              rename_i type
              have short : atAbbreviation (after.prepend [word]) = false := by
                have next : (after.prepend [word]).nth 1 = after.current := rfl
                simp [atAbbreviation, next, closed, TokenKind.isValueType, TokenKind.keyword?]
              have unnamed : identifier? (after.prepend [word]) =
                  .ok (none, after.prepend [word]) :=
                identifier?_eq_ok.mpr ⟨[], rfl, .anonymous, fun _ => by
                  rw [current_prepend_cons, isType]; rfl⟩
              have shown : (after.prepend [word]).atValueType = true := by
                rw [atValueType, current_prepend_cons, isType]
                exact TokenKind.isValueType_keyword type
              have read : valueType (after.prepend [word]) = .ok (type, after) :=
                valueType_eq_ok.mpr ⟨word, rfl, isType⟩
              simp [short, unnamed, shown, read, LocalVariable.anonymous]
          | cons second rest =>
              have all : Many TypeWord _ _ :=
                .cons ⟨word, rfl, isType⟩ (.cons second rest)
              have read := valueTypes_reads.complete after all untyped
              obtain ⟨other, rfl, alsoType⟩ := second
              rw [if_pos (by simp [atAbbreviation, atValueType, isType, alsoType,
                TokenKind.isValueType_keyword])]
              exact bind_eq_ok.mpr ⟨_, _, read, rfl⟩

theorem bindingGroup_reads (word : Keyword) :
    Reads (bindingGroup word) (Group word Binding) (fun _ => True) :=
  group_reads ⟨groupBindings_sound, fun _ binding closed => groupBindings_complete binding closed⟩
    word

theorem bindings_reads (word : Keyword) :
    Reads (bindings word) (fun tokens locals => ∃ groups, BindingGroups word tokens groups ∧
      groups.flatten = locals) (fun after => after.atGroup word = false) where
  sound read := by
    obtain ⟨groups, middle, taken, ended⟩ := bind_eq_ok.mp read
    cases ended
    obtain ⟨tokens, shape, bound⟩ := (many_groups_reads (bindingGroup_reads word)).sound taken
    exact ⟨tokens, shape, groups, bound, rfl⟩
  complete after := by
    rintro ⟨groups, bound, rfl⟩ ended
    exact bind_eq_ok.mpr ⟨groups, after,
      (many_groups_reads (bindingGroup_reads word)).complete after bound ended, rfl⟩

end Reader

namespace TokenStream

/-- Whether neither a name comes next nor a group with one of some head
words. -/
structure Beyond (words : List Keyword) (stream : TokenStream) : Prop where
  unnamed : stream.current.kind.identifier? = none
  free : ∀ word ∈ words, stream.atGroup word = false

namespace Beyond

variable {words : List Keyword} {stream : TokenStream}

theorem of_rightParen (closed : stream.current.kind = .rightParen) : Beyond words stream := by
  refine ⟨by rw [closed]; rfl, fun word _ => atGroup_of_not_leftParen ?_⟩
  rw [closed]
  nofun

theorem mono {fewer : List Keyword} (beyond : Beyond words stream) (included : fewer ⊆ words) :
    Beyond fewer stream :=
  ⟨beyond.unnamed, fun word listed => beyond.free word (included listed)⟩

/-- A group with another head word does not change what a stream is beyond. -/
theorem of_group {left head : Token} {tokens : List Token} {word : Keyword}
    (opened : left.kind = .leftParen) (headed : head.kind = .keyword word)
    (other : word ∉ words) : Beyond words (stream.prepend (left :: head :: tokens)) := by
  refine ⟨by rw [current_prepend_cons, opened]; rfl, fun listed member => ?_⟩
  rw [atGroup_prepend opened headed]
  have different : word ≠ listed := fun same => other (same ▸ member)
  simpa using different

theorem group {α : Type} {word : Keyword} {language : List Token → α → Prop} {value : α}
    {tokens : List Token} (grouped : Group word language tokens value) (other : word ∉ words) :
    Beyond words (stream.prepend tokens) := by
  obtain ⟨opened, headed, -, -⟩ := grouped
  exact of_group opened headed other

theorem groups {α : Type} {word : Keyword} {language : List Token → α → Prop} {values : List α}
    {tokens : List Token} (beyond : Beyond words stream)
    (grouped : Many (Group word language) tokens values) (other : word ∉ words) :
    Beyond words (stream.prepend tokens) := by
  cases grouped with
  | nil => exact beyond
  | cons item others =>
      rw [prepend_append]
      exact group item other

/-- Instructions are beyond all groups that are headed by other words. -/
theorem derives {phrase : Phrase} {scope : Scope} {tokens : List Token}
    {code : List Instruction} (derived : Derives phrase scope tokens code)
    (beyond : Beyond words stream) (others : ∀ word ∈ words, word.isInstruction = false) :
    Beyond words (stream.prepend tokens) := by
  have outside {word : Keyword} (isInstruction : word.isInstruction = true) : word ∉ words := by
    intro member
    rw [others word member] at isInstruction
    cases isInstruction
  have ofKeyword {stream : TokenStream} {token : Token} {rest : List Token} {word : Keyword}
      (kind : token.kind = .keyword word) : Beyond words (stream.prepend (token :: rest)) := by
    refine ⟨by rw [current_prepend_cons, kind]; rfl, fun _ _ => atGroup_of_not_leftParen ?_⟩
    rw [current_prepend_cons, kind]
    nofun
  induction derived generalizing stream with
  | done => exact beyond
  | noOperand => exact beyond
  | next _ _ instructionIH sequenceIH =>
      rw [prepend_append]
      exact instructionIH (sequenceIH beyond)
  | operand _ _ foldedIH operandsIH =>
      rw [prepend_append]
      exact foldedIH (operandsIH beyond)
  | plain isPlain =>
      obtain ⟨kind, -⟩ := isPlain
      exact ofKeyword kind
  | block opening =>
      obtain ⟨word, rest, rfl, kind⟩ := opening.word_first
      exact ofKeyword kind
  | folded _ foldedIH => exact foldedIH beyond
  | @foldedBlock _ kind _ _ _ _ _ _ _ opened opening =>
      obtain ⟨word, rest, rfl, isWord⟩ := opening.word_first
      exact of_group opened isWord (outside (by cases kind <;> rfl))
  | foldedPlain opened isPlain =>
      obtain ⟨kind, immediate⟩ := isPlain
      exact of_group opened kind (outside (isInstruction_of_immediate _ immediate).1)

end Beyond

end TokenStream

end WatMachine
