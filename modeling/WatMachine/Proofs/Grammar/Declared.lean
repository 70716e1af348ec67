import WatMachine.Grammar.Module
import WatMachine.Proofs.Grammar.Balance
import WatMachine.Proofs.Grammar.Bodies

/-!
# What readers of fields take and declare

The parts of a field between its parentheses are balanced, and reading them
declares nothing but types.
-/

namespace WatMachine

open TokenStream

namespace Reader

variable {α β : Type}

/-- Whether a reader takes balanced tokens only. -/
def IsBalanced (reader : Reader α) : Prop :=
  ∀ stream value after, reader stream = .ok (value, after) →
    ∃ tokens, stream = after.prepend tokens ∧ Balanced tokens

theorem IsBalanced.pure (value : α) : IsBalanced (pure value) := by
  rintro stream _ after ⟨⟩
  exact ⟨[], rfl, .nil⟩

theorem IsBalanced.bind {first : Reader α} {next : α → Reader β} (balanced : IsBalanced first)
    (rest : ∀ value, IsBalanced (next value)) : IsBalanced (first >>= next) := by
  intro stream result after run
  obtain ⟨value, middle, taken, read⟩ := bind_eq_ok.mp run
  obtain ⟨front, rfl, isFront⟩ := balanced _ _ _ taken
  obtain ⟨back, rfl, isBack⟩ := rest value _ _ _ read
  exact ⟨front ++ back, (prepend_append _ _ _).symm, isFront.append isBack⟩

/-- A reader that looks at its stream first is balanced if it is wherever it
starts. -/
theorem IsBalanced.get {next : TokenStream → Reader β}
    (rest : ∀ stream, IsBalanced (next stream)) : IsBalanced (get >>= next) := by
  intro stream result after run
  obtain ⟨_, _, shown, read⟩ := bind_eq_ok.mp run
  cases shown
  exact rest stream _ _ _ read

theorem IsBalanced.many {here : TokenStream → Bool} {item : Reader α}
    (balanced : IsBalanced item) : IsBalanced (many here item) := by
  intro stream values after run
  obtain ⟨tokens, shape, items, -⟩ := repeatWhile_sound (fun _ taken => balanced _ _ _ taken) run
  exact ⟨tokens, shape, items.balanced fun item => item⟩

theorem IsBalanced.group {word : Keyword} {inner : Reader α} {next : α → Reader β}
    (balanced : IsBalanced inner) (rest : ∀ value, IsBalanced (next value)) :
    IsBalanced (openGroup word >>= fun _ => inner >>= fun value => rightParen >>= fun _ =>
      next value) := by
  intro stream result after run
  simp only [bind_eq_ok] at run
  obtain ⟨⟨⟩, behind, opened, value, middle, taken, ⟨⟩, last, closed, read⟩ := run
  obtain ⟨left, head, rfl, isLeft, isHead⟩ := openGroup_eq_ok.mp opened
  obtain ⟨tokens, rfl, within⟩ := balanced _ _ _ taken
  obtain ⟨right, rfl, isRight⟩ := rightParen_eq_ok.mp closed
  obtain ⟨others, rfl, isOther⟩ := rest value _ _ _ read
  refine ⟨left :: head :: tokens ++ [right] ++ others, by simp [prepend], ?_⟩
  exact (within.isGroup isLeft isHead isRight).balanced.append isOther

theorem accept_isBalanced {expected : Expectation} {select : TokenKind → Option α}
    (atoms : ∀ {kind value}, select kind = some value → kind.isAtom = true) :
    IsBalanced (accept expected select) := by
  rintro stream ⟨value, span⟩ after run
  have passes : select .endOfInput = none := by
    cases selected : select .endOfInput with
    | none => rfl
    | some value => exact absurd (atoms selected) (by decide)
  obtain ⟨token, rfl, selected, -⟩ := (accept_eq_ok passes).mp run
  exact ⟨[token], rfl, .atom (atoms selected)⟩

theorem string_isBalanced : IsBalanced string := by
  intro stream value after run
  obtain ⟨token, rfl, kind⟩ := string_eq_ok.mp run
  exact ⟨[token], rfl, .atom (by rw [kind]; rfl)⟩

theorem valueType_isBalanced : IsBalanced valueType := by
  intro stream type after run
  obtain ⟨token, rfl, kind⟩ := valueType_eq_ok.mp run
  exact ⟨[token], rfl, .atom (by rw [kind]; rfl)⟩

theorem natural_isBalanced (expected : Expectation) : IsBalanced (natural expected) := by
  refine .bind (accept_isBalanced ?_) fun _ => .pure _
  intro kind value selected
  cases kind <;> first | rfl | cases selected

theorem identifier?_isBalanced : IsBalanced identifier? := by
  intro stream label after run
  obtain ⟨tokens, rfl, named, -⟩ := identifier?_eq_ok.mp run
  exact ⟨tokens, rfl, named.balanced⟩

theorem results_isBalanced : IsBalanced results := by
  intro stream types after run
  obtain ⟨tokens, rfl, groups, isResults, -⟩ := results_reads.sound run
  exact ⟨tokens, rfl, isResults.balanced⟩

theorem groupBindings_isBalanced : IsBalanced groupBindings := by
  refine .get fun stream => ?_
  split
  · exact .bind (.many valueType_isBalanced) fun _ => .pure _
  · refine .bind identifier?_isBalanced fun name => .get fun stream => ?_
    split
    · exact .bind valueType_isBalanced fun _ => .pure _
    · exact .pure _

theorem bindings_isBalanced (word : Keyword) : IsBalanced (bindings word) :=
  .bind (.many (.group groupBindings_isBalanced fun _ => .pure _)) fun _ => .pure _

end Reader

namespace Declarations

/-- Whether no definition has been declared or claimed in between, types
excepted. -/
structure Kept (before after : Declarations) : Prop where
  names : ∀ space, space ≠ .type →
    after.environment.names.get space = before.environment.names.get space
  claimed : after.claimed = before.claimed

theorem Kept.refl (declarations : Declarations) : Kept declarations declarations :=
  ⟨fun _ _ => rfl, rfl⟩

theorem Kept.trans {before middle after : Declarations} (first : Kept before middle)
    (second : Kept middle after) : Kept before after :=
  ⟨fun space other => (second.names space other).trans (first.names space other),
    second.claimed.trans first.claimed⟩

theorem kept_declareType (declarations : Declarations) (name : Option String)
    (signature : Signature) : Kept declarations (declarations.declareType name signature) := by
  refine ⟨fun space other => ?_, rfl⟩
  simp [declareType, declare, other]

end Declarations

namespace Builder

open Reader Declarations

variable {α β : Type} {declarations final : Declarations} {stream rest : TokenStream}

/-- The second of two builders goes on where the first one stops. -/
theorem bind_apply (first : Builder α) (next : α → Builder β) (declarations : Declarations)
    (stream : TokenStream) :
    (first >>= next) declarations stream =
      match first declarations stream with
      | .ok ((value, middle), between) => next value middle between
      | .error error => .error error := by
  have apply : (first >>= next) declarations =
      first declarations >>= fun (value, middle) => next value middle :=
    rfl
  rw [apply, Reader.bind_apply]
  rcases first declarations stream with _ | ⟨⟨value, middle⟩, between⟩ <;> rfl

theorem bind_eq_ok {first : Builder α} {next : α → Builder β} {result : β} :
    (first >>= next) declarations stream = .ok ((result, final), rest) ↔
      ∃ value middle between, first declarations stream = .ok ((value, middle), between) ∧
        next value middle between = .ok ((result, final), rest) := by
  rw [bind_apply]
  rcases first declarations stream with _ | ⟨⟨value, middle⟩, between⟩ <;> simp [and_assoc]

theorem lift_eq_ok {reader : Reader α} {value : α} :
    (liftM reader : Builder α) declarations stream = .ok ((value, final), rest) ↔
      reader stream = .ok (value, rest) ∧ final = declarations := by
  have apply : (liftM reader : Builder α) declarations =
      reader >>= fun value => pure (value, declarations) :=
    rfl
  rw [apply, Reader.bind_eq_ok]
  constructor
  · rintro ⟨_, _, read, ended⟩
    cases ended
    exact ⟨read, rfl⟩
  · rintro ⟨read, rfl⟩
    exact ⟨value, rest, read, rfl⟩

@[simp]
theorem pure_apply (value : α) (declarations : Declarations) (stream : TokenStream) :
    (pure value : Builder α) declarations stream = .ok ((value, declarations), stream) :=
  rfl

@[simp]
theorem get_apply (declarations : Declarations) (stream : TokenStream) :
    (get : Builder Declarations) declarations stream =
      .ok ((declarations, declarations), stream) :=
  rfl

@[simp]
theorem set_apply (declarations after : Declarations) (stream : TokenStream) :
    (set after : Builder PUnit) declarations stream = .ok ((⟨⟩, after), stream) :=
  rfl

/-- Whether a part of a field takes balanced tokens and declares nothing but
types. -/
def Keeps (action : Builder α) : Prop :=
  ∀ declarations stream value after rest,
    action declarations stream = .ok ((value, after), rest) →
    ∃ tokens, stream = rest.prepend tokens ∧ Balanced tokens ∧ Kept declarations after

theorem Keeps.pure (value : α) : Keeps (pure value) := by
  rintro declarations stream _ after rest ⟨⟩
  exact ⟨[], rfl, .nil, .refl _⟩

theorem Keeps.lift {reader : Reader α} (balanced : IsBalanced reader) :
    Keeps (liftM reader : Builder α) := by
  intro declarations stream value after rest run
  obtain ⟨read, rfl⟩ := lift_eq_ok.mp run
  obtain ⟨tokens, rfl, isBalanced⟩ := balanced _ _ _ read
  exact ⟨tokens, rfl, isBalanced, .refl _⟩

theorem Keeps.bind {first : Builder α} {next : α → Builder β} (keeps : Keeps first)
    (others : ∀ value, Keeps (next value)) : Keeps (first >>= next) := by
  intro declarations stream result after rest run
  obtain ⟨value, middle, between, taken, read⟩ := bind_eq_ok.mp run
  obtain ⟨front, rfl, isFront, kept⟩ := keeps _ _ _ _ _ taken
  obtain ⟨back, rfl, isBack, keptToo⟩ := others value _ _ _ _ _ read
  exact ⟨front ++ back, (prepend_append _ _ _).symm, isFront.append isBack, kept.trans keptToo⟩

theorem Keeps.getStream {next : TokenStream → Builder β} (others : ∀ stream, Keeps (next stream)) :
    Keeps (getThe TokenStream >>= next) := by
  intro declarations stream result after rest run
  obtain ⟨_, _, _, shown, read⟩ := bind_eq_ok.mp run
  cases shown
  exact others stream _ _ _ _ _ read

theorem declareType_keeps (name : Option String) (signature : Signature) :
    Keeps (declareType name signature) := by
  rintro declarations stream index after rest run
  cases run
  exact ⟨[], rfl, .nil, kept_declareType _ _ _⟩

theorem declaredType_keeps : Keeps declaredType := by
  rintro declarations stream ⟨index, signature⟩ after rest run
  simp only [declaredType, bind_eq_ok, lift_eq_ok] at run
  obtain ⟨_, _, _, shown, ⟨⟩, _, behind, ⟨opened, rfl⟩, ⟨place, span⟩, _, middle, ⟨taken, rfl⟩,
    run⟩ := run
  cases shown
  cases found : declarations.signatures[place]? with
  | some signature =>
      simp only [found, bind_eq_ok, lift_eq_ok] at run
      obtain ⟨⟨⟩, _, last, ⟨closed, rfl⟩, ended⟩ := run
      cases ended
      obtain ⟨left, head, rfl, isLeft, isHead⟩ := openGroup_eq_ok.mp opened
      obtain ⟨token, rfl, refers, -⟩ := definitionIndex_eq_ok.mp taken
      obtain ⟨right, rfl, isRight⟩ := rightParen_eq_ok.mp closed
      have isGroup := (Balanced.atom refers.isAtom).isGroup isLeft isHead isRight
      exact ⟨_, rfl, isGroup.balanced, .refl _⟩
  | none =>
      simp only [found, lift_eq_ok] at run
      cases run.1

theorem typeUse_keeps : Keeps typeUse := by
  refine .getStream fun stream => ?_
  split <;> first
    | refine .bind (.bind declaredType_keeps fun _ => .pure _) fun declared => ?_
    | refine .bind (.pure none) fun declared => ?_
  all_goals
    refine .bind (.lift (bindings_isBalanced _)) fun params => ?_
    refine .bind (.lift results_isBalanced) fun results => ?_
    cases declared with
    | none => exact .bind (declareType_keeps _ _) fun _ => .pure _
    | some type =>
        dsimp only
        split <;> exact .pure _

end Builder

end WatMachine
