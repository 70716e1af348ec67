import WatMachine.Proofs.Grammar.Balance
import WatMachine.Proofs.Grammar.Bodies

/-!
# The form of a body apart from its names and numbers

Whether tokens have the form of instructions does not depend on what their
names refer to or on how large their numbers are.  To look at the form alone,
every name is blurred into one name and every number into zero.  What is
derived in some scope is derived from the blurred tokens in every scope that
knows the one name.

A stream can be divided in one way only into a phrase and what follows it.
-/

namespace WatMachine

open TokenStream

namespace TokenKind

/-- One name for all names, and zero for all numbers. -/
def blurred : TokenKind → TokenKind
  | identifier _ => identifier "x"
  | integer _ => integer 0
  | other => other

@[simp]
theorem blurred_eq_keyword {kind : TokenKind} {word : Keyword} :
    kind.blurred = .keyword word ↔ kind = .keyword word := by
  cases kind <;> simp [blurred]

@[simp]
theorem blurred_eq_leftParen {kind : TokenKind} :
    kind.blurred = .leftParen ↔ kind = .leftParen := by
  cases kind <;> simp [blurred]

@[simp]
theorem blurred_eq_rightParen {kind : TokenKind} :
    kind.blurred = .rightParen ↔ kind = .rightParen := by
  cases kind <;> simp [blurred]

@[simp]
theorem blurred_eq_endOfInput {kind : TokenKind} :
    kind.blurred = .endOfInput ↔ kind = .endOfInput := by
  cases kind <;> simp [blurred]

@[simp]
theorem blurred_blurred (kind : TokenKind) : kind.blurred.blurred = kind.blurred := by
  cases kind <;> rfl

@[simp]
theorem identifier?_blurred_eq_none {kind : TokenKind} :
    kind.blurred.identifier? = none ↔ kind.identifier? = none := by
  cases kind <;> simp [blurred, identifier?]

end TokenKind

namespace Token

/-- A token without its particular name or number. -/
def blurred (token : Token) : Token :=
  { token with kind := token.kind.blurred }

@[simp]
theorem kind_blurred (token : Token) : token.blurred.kind = token.kind.blurred :=
  rfl

@[simp]
theorem span_blurred (token : Token) : token.blurred.span = token.span :=
  rfl

@[simp]
theorem blurred_blurred (token : Token) : token.blurred.blurred = token.blurred := by
  simp [blurred]

@[simp]
theorem blurred_comp_blurred : blurred ∘ blurred = blurred :=
  funext blurred_blurred

end Token

/-- A scope in which the one name means something, whatever it stands for. -/
structure Scope.Broad (scope : Scope) : Prop where
  definitions : ∀ space, some "x" ∈ scope.environment.names.get space
  locals : some "x" ∈ scope.frame.names
  label : some "x" ∈ scope.labels

namespace Scope

def broadest : Scope where
  environment := ⟨.constant [some "x"]⟩
  frame := .ofParams [⟨.i32, some "x", 0⟩] []
  labels := [some "x"]

theorem broad_broadest : Broad broadest where
  definitions space := by cases space <;> exact List.mem_cons_self
  locals := List.mem_cons_self
  label := List.mem_cons_self

theorem Broad.enter {scope : Scope} (broad : Broad scope) (label : Option String) :
    Broad (scope.enter label) :=
  ⟨broad.definitions, broad.locals, List.mem_cons_of_mem label broad.label⟩

end Scope

section Blurring

variable {α : Type} {tokens : List Token}

theorem Many.mapTokens {language others : List Token → α → Prop} {change : Token → Token}
    {values : List α} (items : Many language tokens values)
    (each : ∀ {tokens value}, language tokens value → others (tokens.map change) value) :
    Many others (tokens.map change) values := by
  induction items with
  | nil => exact .nil
  | cons item _ ih =>
      rw [List.map_append]
      exact .cons (each item) ih

theorem Group.blurred {word : Keyword} {language others : List Token → α → Prop} {value : α}
    (group : Group word language tokens value)
    (each : ∀ {tokens value}, language tokens value → others (tokens.map Token.blurred) value) :
    Group word others (tokens.map Token.blurred) value := by
  obtain ⟨opened, headed, within, closed⟩ := group
  rw [List.map_append]
  exact .mk (by simpa using opened) (by simpa using headed) (each within) (by simpa using closed)

/-- Whether parentheses are balanced does not depend on names and numbers. -/
theorem Balanced.congr {others : List Token} (balanced : Balanced tokens)
    (same : tokens.map (TokenKind.blurred ∘ Token.kind) =
      others.map (TokenKind.blurred ∘ Token.kind)) : Balanced others := by
  have alike {first second : Token}
      (kinds : (TokenKind.blurred ∘ Token.kind) first = (TokenKind.blurred ∘ Token.kind) second) :
      (first.kind = .leftParen ↔ second.kind = .leftParen) ∧
        (first.kind = .rightParen ↔ second.kind = .rightParen) ∧
        (first.kind = .endOfInput ↔ second.kind = .endOfInput) := by
    simp only [Function.comp_apply] at kinds
    rw [← TokenKind.blurred_eq_leftParen, ← TokenKind.blurred_eq_rightParen,
      ← TokenKind.blurred_eq_endOfInput, kinds]
    simp
  induction balanced generalizing others with
  | nil =>
      rw [List.map_eq_nil_iff.mp same.symm]
      exact .nil
  | other left right inside _ ih =>
      obtain ⟨token, rest, rfl, kind, shape⟩ := List.map_eq_cons_iff.mp same.symm
      obtain ⟨isLeft, isRight, isEnd⟩ := alike kind
      exact .other (mt isLeft.mp left) (mt isRight.mp right) (mt isEnd.mp inside)
        (ih shape.symm)
  | group opened _ closed _ withinIH ih =>
      rw [List.map_append] at same
      obtain ⟨front, back, rfl, isFront, isBack⟩ := List.map_eq_append_iff.mp same.symm
      obtain ⟨first, inner, rfl, isFirst, isInner⟩ := List.map_eq_cons_iff.mp isFront
      obtain ⟨last, rest, rfl, isLast, isRest⟩ := List.map_eq_cons_iff.mp isBack
      exact .group ((alike isFirst).1.mpr opened) (withinIH isInner.symm)
        ((alike isLast).2.1.mpr closed) (ih isRest.symm)

theorem Balanced.blurred (balanced : Balanced tokens) : Balanced (tokens.map Token.blurred) :=
  balanced.congr (by simp [Function.comp_def])

theorem Balanced.of_blurred (balanced : Balanced (tokens.map Token.blurred)) : Balanced tokens :=
  balanced.congr (by simp [Function.comp_def])

theorem Named.blurred {label : Option String} (named : Named tokens label) :
    Named (tokens.map Token.blurred) (label.map fun _ => "x") := by
  cases named with
  | anonymous => exact .anonymous
  | named kind => exact .named (by simp [kind, TokenKind.blurred])

theorem TypeWord.blurred {type : ValueType} (word : TypeWord tokens type) :
    TypeWord (tokens.map Token.blurred) type := by
  obtain ⟨token, rfl, kind⟩ := word
  exact ⟨_, rfl, by simpa using kind⟩

theorem ResultGroups.blurred {types : List (List ValueType)} (results : ResultGroups tokens types) :
    ResultGroups (tokens.map Token.blurred) types :=
  results.mapTokens fun group => group.blurred fun words => words.mapTokens TypeWord.blurred

theorem SkippedGroup.blurred {value : Unit} (group : SkippedGroup tokens value) :
    SkippedGroup (tokens.map Token.blurred) value := by
  rcases group with params | results
  · exact .inl (params.blurred Balanced.blurred)
  · exact .inr (results.blurred Balanced.blurred)

theorem Opening.blurred {kind : BlockKind} {label : Option String} {span : Source.Span}
    (opening : Opening kind tokens label span) :
    Opening kind (tokens.map Token.blurred) (label.map fun _ => "x") span := by
  obtain ⟨opened, named, results⟩ := opening
  rw [List.map_append, List.map_cons]
  exact .mk (by simpa using opened) named.blurred results.blurred

theorem Closing.blurred {label : Option String} (closing : Closing label tokens) :
    Closing (label.map fun _ => "x") (tokens.map Token.blurred) := by
  cases closing with
  | short ended => exact .short (by simpa using ended)
  | repeated ended named same =>
      have one : TokenKind.blurred _ = .identifier "x" := congrArg TokenKind.blurred named
      exact .repeated (by simpa using ended) one (by simp [same])

theorem exists_isLeast_of_mem {names : List (Option String)} {text : String}
    (known : some text ∈ names) :
    ∃ index : Nat, IsLeast {place | names[place]? = some (some text)} index := by
  have found : (names.findIdx? (· == some text)).isSome := by
    simpa [List.findIdx?_isSome] using known
  obtain ⟨index, found⟩ := Option.isSome_iff_exists.mp found
  exact ⟨index, findIdx?_name_eq_some.mp found⟩

theorem Reference.blurred {names broad : List (Option String)} {index : Nat}
    (reference : Reference names tokens index) (known : some "x" ∈ broad) :
    ∃ index, Reference broad (tokens.map Token.blurred) index := by
  obtain ⟨token, rfl, refers⟩ := reference
  cases refers with
  | number kind =>
      have zero : token.blurred.kind = .integer 0 := by simp [kind, TokenKind.blurred]
      exact ⟨_, _, rfl, .number zero (by decide) (by decide)⟩
  | name kind =>
      obtain ⟨index, first⟩ := exists_isLeast_of_mem known
      have one : token.blurred.kind = .identifier "x" := by simp [kind, TokenKind.blurred]
      exact ⟨index, _, rfl, .name one first⟩

end Blurring

section Derivations

variable {scope broad : Scope} {tokens : List Token}

theorem CalledType.blurred {operand : Option Operand} (called : CalledType scope tokens operand)
    (isBroad : broad.Broad) : ∃ operand, CalledType broad (tokens.map Token.blurred) operand := by
  cases called with
  | omitted => exact ⟨none, .omitted⟩
  | written group =>
      obtain ⟨opened, headed, within, closed⟩ := group
      obtain ⟨index, refers⟩ := within.blurred (isBroad.definitions .type)
      refine ⟨some (.index index), .written ?_⟩
      rw [List.map_append]
      exact .mk (by simpa using opened) (by simpa using headed) refers (by simpa using closed)

theorem Immediate.blurred {opcode : Keyword} {operand : Option Operand}
    (immediate : Immediate scope opcode tokens operand) (isBroad : broad.Broad) :
    ∃ operand, Immediate broad opcode (tokens.map Token.blurred) operand := by
  cases immediate with
  | call reference =>
      obtain ⟨index, refers⟩ := reference.blurred (isBroad.definitions .function)
      exact ⟨_, .call refers⟩
  | localVariable listed reference =>
      obtain ⟨index, refers⟩ := reference.blurred isBroad.locals
      exact ⟨_, .localVariable listed refers⟩
  | global listed reference =>
      obtain ⟨index, refers⟩ := reference.blurred (isBroad.definitions .global)
      exact ⟨_, .global listed refers⟩
  | label listed reference =>
      obtain ⟨depth, refers⟩ := reference.blurred isBroad.label
      exact ⟨_, .label listed refers⟩
  | indirect called others =>
      obtain ⟨operand, calls⟩ := called.blurred isBroad
      rw [List.map_append]
      exact ⟨operand, .indirect calls (others.mapTokens SkippedGroup.blurred)⟩
  | word kind =>
      have zero : TokenKind.blurred _ = .integer 0 := congrArg TokenKind.blurred kind
      exact ⟨_, .word zero (by decide) (by decide)⟩
  | literal listed kind =>
      have zero : TokenKind.blurred _ = .integer 0 := congrArg TokenKind.blurred kind
      exact ⟨_, .literal listed zero⟩
  | nothing listed => exact ⟨none, .nothing listed⟩

theorem Plain.blurred {code : Instruction} (isPlain : Plain scope tokens code)
    (isBroad : broad.Broad) : ∃ code, Plain broad (tokens.map Token.blurred) code := by
  obtain ⟨kind, immediate⟩ := isPlain
  obtain ⟨operand, taken⟩ := immediate.blurred isBroad
  exact ⟨_, .mk (by simpa using kind) taken⟩

/-- What is derived in some scope keeps its form in every scope that knows the
one name. -/
theorem Derives.blurred {phrase : Phrase} {code : List Instruction}
    (derived : Derives phrase scope tokens code) (isBroad : broad.Broad) :
    ∃ code, Derives phrase broad (tokens.map Token.blurred) code := by
  induction derived generalizing broad with
  | done => exact ⟨[], .done⟩
  | noOperand => exact ⟨[], .noOperand⟩
  | next _ _ firstIH restIH =>
      obtain ⟨code, first⟩ := firstIH isBroad
      obtain ⟨others, rest⟩ := restIH isBroad
      rw [List.map_append]
      exact ⟨_, .next first rest⟩
  | operand _ _ firstIH restIH =>
      obtain ⟨code, first⟩ := firstIH isBroad
      obtain ⟨others, rest⟩ := restIH isBroad
      rw [List.map_append]
      exact ⟨_, .operand first rest⟩
  | plain isPlain =>
      obtain ⟨code, plain⟩ := isPlain.blurred isBroad
      exact ⟨_, .plain plain⟩
  | block opening _ closing ih =>
      obtain ⟨body, inner⟩ := ih (isBroad.enter _)
      rw [List.map_append, List.map_append]
      exact ⟨_, .block opening.blurred inner closing.blurred⟩
  | folded _ ih =>
      obtain ⟨code, inner⟩ := ih isBroad
      exact ⟨code, .folded inner⟩
  | foldedBlock opened opening _ closed ih =>
      obtain ⟨body, inner⟩ := ih (isBroad.enter _)
      rw [List.map_append, List.map_append]
      exact ⟨_, .foldedBlock (by simpa using opened) opening.blurred inner (by simpa using closed)⟩
  | foldedPlain opened isPlain _ closed ih =>
      obtain ⟨code, plain⟩ := isPlain.blurred isBroad
      obtain ⟨operands, others⟩ := ih isBroad
      rw [List.map_append, List.map_append]
      exact ⟨_, .foldedPlain (by simpa using opened) plain others (by simpa using closed)⟩

end Derivations

/-- A stream is divided in one way only into a phrase and what follows it. -/
theorem Derives.unique {phrase : Phrase} {scope : Scope} {front others : List Token}
    {code more : List Instruction} {after behind : TokenStream}
    (derived : Derives phrase scope front code) (also : Derives phrase scope others more)
    (same : after.prepend front = behind.prepend others) (follows : phrase.Follows after)
    (alsoFollows : phrase.Follows behind) : code = more ∧ after = behind := by
  -- One run of the reader finds both phrases, as either has enough fuel.
  let fuel := max (phrase.fuel front.length) (phrase.fuel others.length)
  have enough : phrase.fuel front.length ≤ fuel := Nat.le_max_left _ _
  have alsoEnough : phrase.fuel others.length ≤ fuel := Nat.le_max_right _ _
  have read := derived.read enough follows
  rw [same, also.read alsoEnough alsoFollows] at read
  cases read
  exact ⟨rfl, rfl⟩

namespace TokenStream

variable {all : List Token} {finish : Source.Span}

theorem kind_nth_blurred (distance : Nat) :
    ((TokenStream.mk (all.map Token.blurred) finish).nth distance).kind =
      ((TokenStream.mk all finish).nth distance).kind.blurred := by
  simp only [nth, List.getD_eq_getElem?_getD, List.getElem?_map]
  cases all[distance]? <;> rfl

theorem atGroup_blurred (word : Keyword) :
    (TokenStream.mk (all.map Token.blurred) finish).atGroup word =
      (TokenStream.mk all finish).atGroup word := by
  rw [Bool.eq_iff_iff, atGroup_iff, atGroup_iff, current, current, kind_nth_blurred,
    kind_nth_blurred]
  simp

theorem clear_blurred :
    (TokenStream.mk (all.map Token.blurred) finish).Clear ↔ (TokenStream.mk all finish).Clear := by
  have unnamed : (TokenStream.mk (all.map Token.blurred) finish).current.kind.identifier? = none ↔
      (TokenStream.mk all finish).current.kind.identifier? = none := by
    rw [current, current, kind_nth_blurred, TokenKind.identifier?_blurred_eq_none]
  constructor
  · rintro ⟨first, second, third⟩
    rw [Reader.atSignatureGroup, atGroup_blurred, atGroup_blurred] at third
    exact ⟨unnamed.mp first, by rwa [← atGroup_blurred], third⟩
  · rintro ⟨first, second, third⟩
    refine ⟨unnamed.mpr first, by rwa [atGroup_blurred], ?_⟩
    rwa [Reader.atSignatureGroup, atGroup_blurred, atGroup_blurred]

end TokenStream

theorem Phrase.follows_blurred {phrase : Phrase} {all : List Token} {finish : Source.Span} :
    phrase.Follows ⟨all.map Token.blurred, finish⟩ ↔ phrase.Follows ⟨all, finish⟩ := by
  cases phrase with
  | sequence =>
      simp only [Follows, current, kind_nth_blurred]
      generalize ((TokenStream.mk all finish).nth 0).kind = kind
      cases kind <;> rfl
  | instruction => exact clear_blurred
  | folded => exact Iff.rfl
  | operands =>
      simp only [Follows, atLeftParen, current, kind_nth_blurred]
      generalize ((TokenStream.mk all finish).nth 0).kind = kind
      cases kind <;> rfl

/-- Whether tokens have the form of a phrase, whatever their names and numbers
are. -/
def Forms (phrase : Phrase) (tokens : List Token) : Prop :=
  ∃ scope code, Derives phrase scope (tokens.map Token.blurred) code

/-- Whether tokens have the form of a plain instruction with its operand. -/
def FormsPlain (tokens : List Token) : Prop :=
  ∃ scope code, Plain scope (tokens.map Token.blurred) code

theorem Derives.forms {phrase : Phrase} {scope : Scope} {tokens : List Token}
    {code : List Instruction} (derived : Derives phrase scope tokens code) : Forms phrase tokens :=
  ⟨_, derived.blurred Scope.broad_broadest⟩

theorem Plain.forms {scope : Scope} {tokens : List Token} {code : Instruction}
    (isPlain : Plain scope tokens code) : FormsPlain tokens :=
  ⟨_, isPlain.blurred Scope.broad_broadest⟩

theorem FormsPlain.plain {tokens : List Token} (forms : FormsPlain tokens) {scope : Scope}
    (isBroad : scope.Broad) : ∃ code, Plain scope (tokens.map Token.blurred) code := by
  obtain ⟨_, _, isPlain⟩ := forms
  have again := isPlain.blurred isBroad
  rwa [List.map_map, Token.blurred_comp_blurred] at again

/-- A plain instruction starts with a keyword that starts no block. -/
theorem FormsPlain.word_first {tokens : List Token} (forms : FormsPlain tokens) :
    ∃ word rest opcode, tokens = word :: rest ∧ word.kind = .keyword opcode ∧
      BlockKind.ofKeyword? opcode = none := by
  obtain ⟨scope, _, isPlain⟩ := forms
  generalize same : tokens.map Token.blurred = all at isPlain
  obtain ⟨kind, immediate⟩ := isPlain
  obtain ⟨word, rest, rfl, rfl, -⟩ := List.map_eq_cons_iff.mp same
  exact ⟨word, rest, _, rfl, by simpa using kind,
    (Reader.isInstruction_of_immediate scope immediate).2⟩

namespace Forms

variable {phrase : Phrase} {tokens first rest : List Token}

theorem derives (forms : Forms phrase tokens) {scope : Scope} (isBroad : scope.Broad) :
    ∃ code, Derives phrase scope (tokens.map Token.blurred) code := by
  obtain ⟨_, _, derived⟩ := forms
  have again := derived.blurred isBroad
  rwa [List.map_map, Token.blurred_comp_blurred] at again

theorem nil : Forms .sequence [] :=
  ⟨.broadest, [], .done⟩

theorem next (forms : Forms .instruction first) (others : Forms .sequence rest) :
    Forms .sequence (first ++ rest) := by
  obtain ⟨code, derived⟩ := forms.derives Scope.broad_broadest
  obtain ⟨more, followed⟩ := others.derives Scope.broad_broadest
  rw [Forms, List.map_append]
  exact ⟨_, _, .next derived followed⟩

theorem operand (forms : Forms .folded first) (others : Forms .operands rest) :
    Forms .operands (first ++ rest) := by
  obtain ⟨code, derived⟩ := forms.derives Scope.broad_broadest
  obtain ⟨more, followed⟩ := others.derives Scope.broad_broadest
  rw [Forms, List.map_append]
  exact ⟨_, _, .operand derived followed⟩

theorem plain (forms : FormsPlain tokens) : Forms .instruction tokens := by
  obtain ⟨scope, code, isPlain⟩ := forms
  exact ⟨scope, _, .plain isPlain⟩

theorem folded (forms : Forms .folded tokens) : Forms .instruction tokens := by
  obtain ⟨scope, code, derived⟩ := forms
  exact ⟨scope, code, .folded derived⟩

theorem block {kind : BlockKind} {head inner last : List Token} {label : Option String}
    {span : Source.Span} (opening : Opening kind head label span) (forms : Forms .sequence inner)
    (closing : Closing label last) : Forms .instruction (head ++ inner ++ last) := by
  obtain ⟨code, derived⟩ := forms.derives (Scope.broad_broadest.enter (label.map fun _ => "x"))
  rw [Forms, List.map_append, List.map_append]
  exact ⟨_, _, .block opening.blurred derived closing.blurred⟩

theorem foldedBlock {kind : BlockKind} {left right : Token} {head inner : List Token}
    {label : Option String} {span : Source.Span} (opened : left.kind = .leftParen)
    (opening : Opening kind head label span) (forms : Forms .sequence inner)
    (closed : right.kind = .rightParen) : Forms .folded (left :: head ++ inner ++ [right]) := by
  obtain ⟨code, derived⟩ := forms.derives (Scope.broad_broadest.enter (label.map fun _ => "x"))
  rw [Forms, List.map_append, List.map_append]
  exact ⟨_, _, .foldedBlock (by simpa using opened) opening.blurred derived (by simpa using closed)⟩

theorem foldedPlain {left right : Token} (opened : left.kind = .leftParen)
    (forms : FormsPlain first) (others : Forms .operands rest)
    (closed : right.kind = .rightParen) : Forms .folded (left :: first ++ rest ++ [right]) := by
  obtain ⟨code, isPlain⟩ := forms.plain Scope.broad_broadest
  obtain ⟨more, followed⟩ := others.derives Scope.broad_broadest
  rw [Forms, List.map_append, List.map_append]
  exact ⟨_, _, .foldedPlain (by simpa using opened) isPlain followed (by simpa using closed)⟩

theorem balanced (forms : Forms phrase tokens) : Balanced tokens := by
  obtain ⟨_, _, derived⟩ := forms
  exact derived.balanced.of_blurred

theorem clear (forms : Forms phrase tokens) {back : List Token}
    (behind : (TokenStream.mk back .origin).Clear) :
    (TokenStream.mk (tokens ++ back) .origin).Clear := by
  obtain ⟨_, _, derived⟩ := forms
  have cleared := derived.clear (clear_blurred.mpr behind)
  rwa [prepend, ← List.map_append, clear_blurred] at cleared

theorem clear_end (forms : Forms phrase tokens) : (TokenStream.mk tokens .origin).Clear := by
  have ended : (TokenStream.mk [] .origin).Clear := .of_endsSequence rfl
  have clear := forms.clear ended
  rwa [List.append_nil] at clear

/-- A phrase of given kind ends in one place only, if nothing behind it could
belong to it. -/
theorem unique {front others back : List Token} (forms : Forms phrase front)
    (also : Forms phrase others) (same : front ++ back = others ++ rest)
    (follows : phrase.Follows ⟨back, .origin⟩) (alsoFollows : phrase.Follows ⟨rest, .origin⟩) :
    front = others ∧ back = rest := by
  obtain ⟨code, derived⟩ := forms.derives Scope.broad_broadest
  obtain ⟨more, alsoDerived⟩ := also.derives Scope.broad_broadest
  have streams : TokenStream.prepend (front.map Token.blurred) ⟨back.map Token.blurred, .origin⟩ =
      TokenStream.prepend (others.map Token.blurred) ⟨rest.map Token.blurred, .origin⟩ := by
    simp only [prepend, ← List.map_append, same]
  have tails := (derived.unique alsoDerived streams (Phrase.follows_blurred.mpr follows)
    (Phrase.follows_blurred.mpr alsoFollows)).2
  rw [TokenStream.mk.injEq] at tails
  have lengths := congrArg List.length tails.1
  rw [List.length_map, List.length_map] at lengths
  exact List.append_inj' same lengths

end Forms

end WatMachine
