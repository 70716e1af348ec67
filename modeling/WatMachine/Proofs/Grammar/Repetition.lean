import Mathlib.Order.Bounds.Basic
import WatMachine.Proofs.Grammar.Readers

/-!
# References, skipping and repetition

A reference is one token, a number or a name, and a name means the first of
those that it is resolved among.  Skipping takes a group with balanced
parentheses, and a repeated reader takes the tokens of its items one after the
other.
-/

namespace WatMachine

open TokenStream

/-- A token that refers to one of some definitions, variables or labels: by its
number, or by its name if it is the first of that name. -/
inductive RefersTo (names : List (Option String)) (token : Token) : Nat → Prop where
  | number {value : Int} (kind : token.kind = .integer value) (positive : 0 ≤ value)
      (small : value < 0x100000000) : RefersTo names token value.toNat
  | name {text : String} {index : Nat} (kind : token.kind = .identifier text)
      (first : IsLeast {place | names[place]? = some (some text)} index) :
      RefersTo names token index

/-- One identifier, or no token at all. -/
inductive Named : List Token → Option String → Prop where
  | anonymous : Named [] none
  | named {token : Token} {name : String} (kind : token.kind = .identifier name) :
      Named [token] (some name)

/-- Tokens with balanced parentheses among them. -/
inductive Balanced : List Token → Prop where
  | nil : Balanced []
  | other {token : Token} {rest : List Token} (left : token.kind ≠ .leftParen)
      (right : token.kind ≠ .rightParen) (inside : token.kind ≠ .endOfInput)
      (balanced : Balanced rest) : Balanced (token :: rest)
  | group {left right : Token} {inner rest : List Token} (opened : left.kind = .leftParen)
      (within : Balanced inner) (closed : right.kind = .rightParen) (balanced : Balanced rest) :
      Balanced (left :: inner ++ right :: rest)

/-- Repeated items of a language, one after the other. -/
inductive Many {α : Type} (language : List Token → α → Prop) : List Token → List α → Prop where
  | nil : Many language [] []
  | cons {first rest : List Token} {value : α} {values : List α} (item : language first value)
      (others : Many language rest values) : Many language (first ++ rest) (value :: values)

/-- Whether references are resolved among some names: a number to itself, and a
name to the first place that has it. -/
structure Resolves (resolve : Identifier → Option Nat) (names : List (Option String)) :
    Prop where
  number : ∀ value, resolve (.index value) = some value
  name : ∀ text index, resolve (.name text) = some index ↔
    IsLeast {place | names[place]? = some (some text)} index

theorem findIdx?_name_eq_some {names : List (Option String)} {text : String} {index : Nat} :
    names.findIdx? (· == some text) = some index ↔
      IsLeast {place | names[place]? = some (some text)} index := by
  rw [List.findIdx?_eq_some_iff_getElem]
  constructor
  · rintro ⟨inside, found, before⟩
    constructor
    · exact List.getElem?_eq_some_iff.mpr ⟨inside, beq_iff_eq.mp found⟩
    · intro place same
      by_contra below
      obtain ⟨bound, equal⟩ := List.getElem?_eq_some_iff.mp same
      exact before place (by omega) (beq_iff_eq.mpr equal)
  · rintro ⟨found, least⟩
    obtain ⟨inside, equal⟩ := List.getElem?_eq_some_iff.mp found
    refine ⟨inside, beq_iff_eq.mpr equal, ?_⟩
    intro place below same
    have bound := least (List.getElem?_eq_some_iff.mpr ⟨by omega, beq_iff_eq.mp same⟩)
    omega

theorem Environment.resolves (environment : Environment) (space : IndexSpace) :
    Resolves (environment.resolve? space) (environment.names.get space) :=
  ⟨fun _ => rfl, fun _ _ => findIdx?_name_eq_some⟩

theorem Balanced.append {front back : List Token} (balanced : Balanced front)
    (others : Balanced back) : Balanced (front ++ back) := by
  induction balanced with
  | nil => exact others
  | other left right inside _ ih => exact .other left right inside ih
  | @group left right inner rest opened within closed _ _ ih =>
      have grouped := Balanced.group opened within closed ih
      simpa using grouped

theorem Balanced.tail {token : Token} {rest : List Token} (balanced : Balanced (token :: rest))
    (other : token.kind ≠ .leftParen) : Balanced rest := by
  cases balanced with
  | other _ _ _ balanced => exact balanced
  | group opened _ _ _ => exact absurd opened other

namespace TokenStream

variable {finish : Source.Span}

section Equations

variable {token : Token} (depth : Nat) (rest : List Token)

theorem closeGroups_left (opened : token.kind = .leftParen) :
    closeGroups finish depth (token :: rest) = closeGroups finish (depth + 1) rest := by
  obtain ⟨kind, text, span⟩ := token
  cases opened
  rfl

theorem closeGroups_right_zero (closed : token.kind = .rightParen) :
    closeGroups finish 0 (token :: rest) = .ok rest := by
  obtain ⟨kind, text, span⟩ := token
  cases closed
  rfl

theorem closeGroups_right_succ (closed : token.kind = .rightParen) :
    closeGroups finish (depth + 1) (token :: rest) = closeGroups finish depth rest := by
  obtain ⟨kind, text, span⟩ := token
  cases closed
  rfl

theorem closeGroups_other (left : token.kind ≠ .leftParen) (right : token.kind ≠ .rightParen)
    (inside : token.kind ≠ .endOfInput) :
    closeGroups finish depth (token :: rest) = closeGroups finish depth rest := by
  obtain ⟨kind, text, span⟩ := token
  cases kind <;> first | contradiction | rfl

theorem closeGroups_end (ended : token.kind = .endOfInput) :
    closeGroups finish depth (token :: rest) =
      .error ⟨.unexpected .rightParen .endOfInput, token.span⟩ := by
  obtain ⟨kind, text, span⟩ := token
  cases ended
  rfl

end Equations

/-- Balanced tokens do not change how many groups are open. -/
theorem closeGroups_append {inner : List Token} (balanced : Balanced inner) (depth : Nat)
    (rest : List Token) :
    closeGroups finish depth (inner ++ rest) = closeGroups finish depth rest := by
  induction balanced generalizing depth rest with
  | nil => rfl
  | other left right inside _ ih =>
      rw [List.cons_append, closeGroups_other _ _ left right inside, ih]
  | group opened _ closed _ withinIH ih =>
      rw [List.append_assoc, List.cons_append, List.cons_append, closeGroups_left _ _ opened,
        withinIH, closeGroups_right_succ _ _ closed, ih]

/-- What is skipped up to the end of a group is balanced, and so is what comes
before the end of every group around it. -/
theorem exists_balanced_of_closeGroups {depth : Nat} {tokens rest : List Token}
    (closes : closeGroups finish depth tokens = .ok rest) :
    ∃ inner right more, tokens = inner ++ right :: more ∧ Balanced inner ∧
      right.kind = .rightParen ∧
      match depth with
      | 0 => more = rest
      | depth + 1 => closeGroups finish depth more = .ok rest := by
  -- What follows an inner group is not the tail of the list, so the induction is on length.
  induction length : tokens.length using Nat.strongRecOn generalizing tokens depth with
  | ind length ih =>
  cases tokens with
  | nil => cases closes
  | cons token tokens =>
      by_cases opened : token.kind = .leftParen
      · rw [closeGroups_left _ _ opened] at closes
        obtain ⟨inner, right, more, rfl, within, closed, closes⟩ :=
          ih tokens.length (by simp [← length]) closes rfl
        obtain ⟨others, last, behind, rfl, balanced, ended, closes⟩ :=
          ih more.length (by simp [← length]; omega) closes rfl
        refine ⟨token :: inner ++ right :: others, last, behind, by simp, ?_, ended, closes⟩
        exact .group opened within closed balanced
      by_cases closed : token.kind = .rightParen
      · refine ⟨[], token, tokens, rfl, .nil, closed, ?_⟩
        cases depth with
        | zero =>
            rw [closeGroups_right_zero _ closed] at closes
            exact Except.ok.inj closes
        | succ depth => rwa [closeGroups_right_succ _ _ closed] at closes
      by_cases ended : token.kind = .endOfInput
      · rw [closeGroups_end _ _ ended] at closes
        cases closes
      · rw [closeGroups_other _ _ opened closed ended] at closes
        obtain ⟨inner, right, more, rfl, within, last, closes⟩ :=
          ih tokens.length (by simp [← length]) closes rfl
        exact ⟨token :: inner, right, more, rfl, .other opened closed ended within, last, closes⟩

end TokenStream

namespace Reader

variable {α : Type}

theorem closeGroup_apply (stream : TokenStream) :
    closeGroup stream =
      (closeGroups stream.finish 0 stream.ahead).map fun ahead => ((), { stream with ahead }) := by
  simp only [closeGroup, bind_apply, get_apply]
  cases closeGroups stream.finish 0 stream.ahead <;> rfl

/-- What is left of a group is skipped up to the parenthesis that closes it. -/
theorem closeGroup_eq_ok {stream after : TokenStream} :
    closeGroup stream = .ok ((), after) ↔
      ∃ inner right, stream = after.prepend (inner ++ [right]) ∧ Balanced inner ∧
        right.kind = .rightParen := by
  rw [closeGroup_apply]
  constructor
  · intro skipped
    cases closes : closeGroups stream.finish 0 stream.ahead with
    | error error =>
        rw [closes] at skipped
        cases skipped
    | ok rest =>
        rw [closes] at skipped
        cases skipped
        obtain ⟨inner, right, more, shape, balanced, closed, rfl⟩ :=
          exists_balanced_of_closeGroups closes
        exact ⟨inner, right, by simp [prepend, ← shape], balanced, closed⟩
  · rintro ⟨inner, right, rfl, balanced, closed⟩
    rw [ahead_prepend, List.append_assoc, closeGroups_append balanced, List.cons_append,
      closeGroups_right_zero _ closed]
    rfl

theorem skipGroup_eq_ok {stream after : TokenStream} :
    skipGroup stream = .ok ((), after) ↔
      ∃ left inner right, stream = after.prepend (left :: inner ++ [right]) ∧
        left.kind = .leftParen ∧ Balanced inner ∧ right.kind = .rightParen := by
  rw [skipGroup, bind_eq_ok]
  constructor
  · rintro ⟨⟨⟩, middle, opened, skipped⟩
    obtain ⟨left, rfl, isLeft⟩ := leftParen_eq_ok.mp opened
    obtain ⟨inner, right, rfl, balanced, closed⟩ := closeGroup_eq_ok.mp skipped
    exact ⟨left, inner, right, rfl, isLeft, balanced, closed⟩
  · rintro ⟨left, inner, right, rfl, isLeft, balanced, closed⟩
    exact ⟨(), after.prepend (inner ++ [right]), leftParen_eq_ok.mpr ⟨left, rfl, isLeft⟩,
      closeGroup_eq_ok.mpr ⟨inner, right, rfl, balanced, closed⟩⟩

/-- A reference is one token, which refers to an index among the names that it
is resolved in. -/
theorem resolved_eq_ok {expected : Expectation} {referent : Referent}
    {resolve : Identifier → Option Nat} {names : List (Option String)}
    (resolves : Resolves resolve names) {stream after : TokenStream} {index : Nat}
    {span : Source.Span} :
    resolved expected referent resolve stream = .ok ((index, span), after) ↔
      ∃ token, stream = after.prepend [token] ∧ RefersTo names token index ∧
        token.span = span := by
  have refers (token : Token) : RefersTo names token index ↔
      ∃ identifier, reference? token.kind = some identifier ∧
        resolve identifier = some index := by
    constructor
    · rintro (⟨kind, positive, small⟩ | ⟨kind, first⟩)
      · exact ⟨_, by simp [kind, reference?, naturalValue?, positive, small], resolves.number _⟩
      · exact ⟨_, by rw [kind]; rfl, (resolves.name _ _).mpr first⟩
    · rintro ⟨identifier, referred, resolved⟩
      cases kind : token.kind with
      | integer value =>
          rw [kind] at referred
          by_cases fits : 0 ≤ value ∧ value < 0x100000000
          · simp only [reference?, naturalValue?, if_pos fits, Option.map_some,
              Option.some.injEq] at referred
            subst referred
            cases (resolves.number _).symm.trans resolved
            exact .number kind fits.1 fits.2
          · simp [reference?, naturalValue?, fits] at referred
      | identifier text =>
          rw [kind] at referred
          cases referred
          exact .name kind ((resolves.name _ _).mp resolved)
      | _ =>
          rw [kind] at referred
          cases referred
  rw [Reader.resolved, bind_eq_ok]
  constructor
  · rintro ⟨⟨identifier, place⟩, middle, accepted, ended⟩
    obtain ⟨token, rfl, selected, rfl⟩ := (accept_eq_ok rfl).mp accepted
    cases found : resolve identifier with
    | none =>
        simp [found] at ended
    | some meant =>
        simp only [found, pure_apply] at ended
        cases ended
        exact ⟨token, rfl, (refers token).mpr ⟨identifier, selected, found⟩, rfl⟩
  · rintro ⟨token, rfl, referred, rfl⟩
    obtain ⟨identifier, selected, found⟩ := (refers token).mp referred
    exact ⟨_, after, (accept_eq_ok rfl).mpr ⟨token, rfl, selected, rfl⟩, by simp [found]⟩

theorem identifier?_apply (stream : TokenStream) :
    identifier? stream =
      match stream.current.kind.identifier? with
      | some name => .ok (some name, stream.advance)
      | none => .ok (none, stream) := by
  simp only [identifier?, bind_apply, current_apply]
  cases stream.current.kind <;> rfl

theorem identifier?_eq_ok {stream after : TokenStream} {label : Option String} :
    identifier? stream = .ok (label, after) ↔
      ∃ tokens, stream = after.prepend tokens ∧ Named tokens label ∧
        (label = none → after.current.kind.identifier? = none) := by
  rw [identifier?_apply]
  constructor
  · intro read
    cases named : stream.current.kind.identifier? with
    | none =>
        rw [named] at read
        cases read
        exact ⟨[], rfl, .anonymous, fun _ => named⟩
    | some name =>
        have kind := TokenKind.identifier?_eq_some.mp named
        obtain ended | ⟨token, behind, rfl, inside⟩ := stream.isEnd_or_exists_prepend
        · simp [Token.isEnd, kind] at ended
        · rw [named, advance_prepend_of_not_end behind inside] at read
          cases read
          exact ⟨[token], rfl, .named kind, fun missing => by cases missing⟩
  · rintro ⟨tokens, rfl, named, ended⟩
    cases named with
    | anonymous => rw [prepend_nil, ended rfl]
    | @named token name kind =>
        have inside : token.isEnd = false := by simp [Token.isEnd, kind]
        rw [current_prepend_cons, kind, advance_prepend_of_not_end after inside]
        rfl

section Repetition

variable {language : List Token → α → Prop} {here : TokenStream → Bool} {item : Reader α}

theorem repeatWhile_sound
    (sound : ∀ {stream value after}, here stream = true → item stream = .ok (value, after) →
      ∃ tokens, stream = after.prepend tokens ∧ language tokens value)
    {clock : List Token} {stream after : TokenStream} {values : List α}
    (read : repeatWhile here item clock stream = .ok (values, after)) :
    ∃ tokens, stream = after.prepend tokens ∧ Many language tokens values ∧
      here after = false := by
  induction clock generalizing stream values with
  | nil =>
      cases shown : here stream with
      | true => simp [repeatWhile, shown] at read
      | false =>
          simp only [repeatWhile, bind_apply, get_apply, shown] at read
          cases read
          exact ⟨[], rfl, .nil, shown⟩
  | cons token clock ih =>
      cases shown : here stream with
      | true =>
          rw [repeatWhile, bind_apply, get_apply] at read
          simp only [shown, if_true] at read
          obtain ⟨first, middle, taken, read⟩ := bind_eq_ok.mp read
          obtain ⟨others, last, repeated, read⟩ := bind_eq_ok.mp read
          cases read
          obtain ⟨front, rfl, isItem⟩ := sound shown taken
          obtain ⟨back, rfl, items, ended⟩ := ih repeated
          exact ⟨front ++ back, (prepend_append _ _ _).symm, .cons isItem items, ended⟩
      | false =>
          simp only [repeatWhile, bind_apply, get_apply, shown] at read
          cases read
          exact ⟨[], rfl, .nil, shown⟩

/-- Repeated items are taken as long as the clock has a token for each of
them. -/
theorem repeatWhile_complete
    (complete : ∀ {tokens value} (after : TokenStream), language tokens value →
      item (after.prepend tokens) = .ok (value, after))
    (shows : ∀ {tokens value} (after : TokenStream), language tokens value →
      tokens ≠ [] ∧ here (after.prepend tokens) = true)
    {clock tokens : List Token} {values : List α} {after : TokenStream}
    (items : Many language tokens values) (ended : here after = false)
    (enough : tokens.length ≤ clock.length) :
    repeatWhile here item clock (after.prepend tokens) = .ok (values, after) := by
  induction items generalizing clock with
  | nil => cases clock <;> simp [repeatWhile, ended]
  | @cons first rest value values isItem items ih =>
      obtain ⟨nonempty, shown⟩ := shows (after.prepend rest) isItem
      have some := List.length_pos_iff.mpr nonempty
      rw [List.length_append] at enough
      cases clock with
      | nil =>
          rw [List.length_nil] at enough
          omega
      | cons token clock =>
          have others := ih (by rw [List.length_cons] at enough; omega : rest.length ≤ clock.length)
          rw [prepend_append, repeatWhile]
          simp [shown, complete (after.prepend rest) isItem, others]

/-- A repeated reader takes the items of a language, if each of them is taken
wherever it comes and shows by its first tokens that it comes. -/
theorem many_reads
    (sound : ∀ {stream value after}, here stream = true → item stream = .ok (value, after) →
      ∃ tokens, stream = after.prepend tokens ∧ language tokens value)
    (complete : ∀ {tokens value} (after : TokenStream), language tokens value →
      item (after.prepend tokens) = .ok (value, after))
    (shows : ∀ {tokens value} (after : TokenStream), language tokens value →
      tokens ≠ [] ∧ here (after.prepend tokens) = true) :
    Reads (many here item) (Many language) (fun after => here after = false) where
  sound read := by
    obtain ⟨tokens, shape, items, -⟩ := repeatWhile_sound sound read
    exact ⟨tokens, shape, items⟩
  complete after items ended := repeatWhile_complete complete shows items ended (by simp)

end Repetition

end Reader

end WatMachine
