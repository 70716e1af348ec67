import Mathlib.Data.List.Forall2
import Mathlib.Logic.Relation
import WatMachine.Proofs.Grammar.FunctionReaders

/-!
# Groups of bindings

Parameters and locals are read from the longest run of groups with their head
word, if each group of the run names one variable or lists the types of
nameless ones.  The variables of all groups are put together in order, so
splitting a group of nameless variables into several, or merging several into
one, does not change them.  Nor does it change the arity of a function or what
the names in its body refer to.
-/

namespace WatMachine

open TokenStream Reader

/-- Groups with one head word. -/
def IsRun (word : Keyword) (groups : List (List Token)) : Prop :=
  ∀ group ∈ groups, IsGroup group ∧ headWord? group = some word

/-- Whether groups declare some variables, each group its part of them. -/
def Declare (word : Keyword) (groups : List (List Token)) (locals : List LocalVariable) : Prop :=
  ∃ bound, List.Forall₂ (Group word Binding) groups bound ∧ bound.flatten = locals

/-- Whether one group of nameless variables is split into two, or an empty one
is added. -/
inductive Splits (word : Keyword) : List (List Token) → List (List Token) → Prop where
  | group {front back : List (List Token)} {whole first second : List Token}
      {types others : List ValueType} (merged : Group word (Many TypeWord) whole (types ++ others))
      (begun : Group word (Many TypeWord) first types)
      (ended : Group word (Many TypeWord) second others) :
      Splits word (front ++ whole :: back) (front ++ first :: second :: back)
  | empty {front back : List (List Token)} {group : List Token}
      (nothing : Group word (Many TypeWord) group []) :
      Splits word (front ++ back) (front ++ group :: back)

section Runs

variable {word : Keyword} {groups others : List (List Token)}

theorem Group.isRun {α : Type} {language : List Token → α → Prop} {group : List Token} {value : α}
    (balanced : ∀ {tokens value}, language tokens value → Balanced tokens)
    (grouped : Group word language group value) :
    IsGroup group ∧ headWord? group = some word := by
  refine ⟨grouped.isGroup balanced, ?_⟩
  obtain ⟨-, headed, -, -⟩ := grouped
  simp [headWord?, headed, TokenKind.keyword?]

theorem isRun_append {front back : List (List Token)} :
    IsRun word (front ++ back) ↔ IsRun word front ∧ IsRun word back :=
  List.forall_mem_append

theorem isRun_cons {group : List Token} {rest : List (List Token)} :
    IsRun word (group :: rest) ↔
      (IsGroup group ∧ headWord? group = some word) ∧ IsRun word rest :=
  List.forall_mem_cons

theorem atGroup_of_headed {group : List Token} (isGroup : IsGroup group)
    (headed : headWord? group = some word) (stream : TokenStream) :
    (stream.prepend group).atGroup word = true := by
  have shown := isGroup.nth_one stream
  rw [headed, TokenKind.keyword?_eq_some] at shown
  obtain ⟨left, inner, rfl, opened⟩ := isGroup.first_token
  exact atGroup_iff.mpr ⟨opened, shown⟩

/-- A run ends where it is followed by something else. -/
theorem IsRun.unique {after behind : TokenStream} (run : IsRun word groups)
    (other : IsRun word others) (ended : after.atGroup word = false)
    (stopped : behind.atGroup word = false)
    (same : after.prepend groups.flatten = behind.prepend others.flatten) :
    groups = others ∧ after = behind := by
  have shows {groups : List (List Token)} (run : IsRun word groups) : ∀ group ∈ groups,
      IsGroup group ∧ ∀ stream : TokenStream, (stream.prepend group).atGroup word = true := by
    intro group member
    obtain ⟨isGroup, headed⟩ := run group member
    exact ⟨isGroup, atGroup_of_headed isGroup headed⟩
  exact shownGroups_unique (shows run) (shows other) ended stopped same

theorem Many.iff_forall₂ {α : Type} {language : List Token → α → Prop} {tokens : List Token}
    {values : List α} :
    Many language tokens values ↔
      ∃ parts, tokens = parts.flatten ∧ List.Forall₂ language parts values := by
  constructor
  · intro items
    induction items with
    | nil => exact ⟨[], rfl, .nil⟩
    | cons item _ ih =>
        obtain ⟨parts, rfl, each⟩ := ih
        exact ⟨_ :: parts, rfl, .cons item each⟩
  · rintro ⟨parts, rfl, each⟩
    induction each with
    | nil => exact .nil
    | cons item _ ih => exact .cons item ih

end Runs

namespace Declare

variable {word : Keyword} {groups others : List (List Token)} {locals : List LocalVariable}

theorem isRun (declared : Declare word groups locals) : IsRun word groups := by
  obtain ⟨bound, each, -⟩ := declared
  induction each with
  | nil => exact nofun
  | cons grouped _ ih => exact isRun_cons.mpr ⟨grouped.isRun Binding.balanced, ih⟩

theorem nil : Declare word [] locals ↔ locals = [] := by
  constructor
  · rintro ⟨_, ⟨⟩, rfl⟩
    rfl
  · rintro rfl
    exact ⟨[], .nil, rfl⟩

theorem cons {group : List Token} {rest : List (List Token)} :
    Declare word (group :: rest) locals ↔
      ∃ first others, Group word Binding group first ∧ Declare word rest others ∧
        first ++ others = locals := by
  constructor
  · rintro ⟨_, _ | ⟨grouped, each⟩, rfl⟩
    exact ⟨_, _, grouped, ⟨_, each, rfl⟩, rfl⟩
  · rintro ⟨first, others, grouped, ⟨bound, each, rfl⟩, rfl⟩
    exact ⟨first :: bound, .cons grouped each, rfl⟩

theorem iff_each : (∃ locals, Declare word groups locals) ↔
    ∀ group ∈ groups, ∃ locals, Group word Binding group locals := by
  induction groups with
  | nil => simp [nil]
  | cons group groups ih =>
      rw [List.forall_mem_cons, ← ih]
      simp only [cons]
      constructor
      · rintro ⟨_, first, rest, grouped, declared, rfl⟩
        exact ⟨⟨first, grouped⟩, rest, declared⟩
      · rintro ⟨⟨first, grouped⟩, rest, declared⟩
        exact ⟨_, first, rest, grouped, declared, rfl⟩

theorem append {front back : List (List Token)} :
    Declare word (front ++ back) locals ↔
      ∃ first rest, Declare word front first ∧ Declare word back rest ∧ first ++ rest = locals := by
  induction front generalizing locals with
  | nil => simp [nil]
  | cons group front ih =>
      rw [List.cons_append, cons]
      simp only [cons, ih]
      constructor
      · rintro ⟨first, _, grouped, ⟨second, rest, begun, followed, rfl⟩, rfl⟩
        exact ⟨_, rest, ⟨first, second, grouped, begun, rfl⟩, followed, List.append_assoc _ _ _⟩
      · rintro ⟨_, rest, ⟨first, second, grouped, begun, rfl⟩, followed, rfl⟩
        exact ⟨first, _, grouped, ⟨second, rest, begun, followed, rfl⟩,
          (List.append_assoc _ _ _).symm⟩

end Declare

/-- What a group of types declares. -/
theorem Group.binding_iff {word : Keyword} {group : List Token} {types : List ValueType}
    (grouped : Group word (Many TypeWord) group types) {locals : List LocalVariable} :
    Group word Binding group locals ↔ locals = types.map .anonymous := by
  have declared : Group word Binding group (types.map .anonymous) := by
    obtain ⟨opened, headed, words, closed⟩ := grouped
    exact .mk opened headed (.anonymous words) closed
  constructor
  · intro bound
    exact (@Reads.unique _ _ _ _ (bindingGroup_reads word) _ _ _ _ ⟨[], .origin⟩ _ bound declared
      trivial trivial rfl).1
  · rintro rfl
    exact declared

namespace Splits

variable {word : Keyword} {groups others : List (List Token)}

theorem declare_iff (splits : Splits word groups others) {locals : List LocalVariable} :
    Declare word groups locals ↔ Declare word others locals := by
  cases splits with
  | group merged begun ended =>
      simp [Declare.append, Declare.cons, merged.binding_iff, begun.binding_iff,
        ended.binding_iff]
  | empty nothing => simp [Declare.append, Declare.cons, nothing.binding_iff]

theorem isRun_iff (splits : Splits word groups others) :
    IsRun word groups ↔ IsRun word others := by
  have run {group : List Token} {types : List ValueType}
      (grouped : Group word (Many TypeWord) group types) := grouped.isRun
        (Many.balanced TypeWord.balanced)
  cases splits with
  | group merged begun ended =>
      simp [isRun_append, isRun_cons, run merged, run begun, run ended]
  | empty nothing => simp [isRun_append, isRun_cons, run nothing]

end Splits

/-- Splitting and merging in any way changes neither what is a run nor what it
declares. -/
theorem regrouped {word : Keyword} {groups others : List (List Token)}
    (splits : Relation.EqvGen (Splits word) groups others) :
    (IsRun word groups ↔ IsRun word others) ∧
      ∀ locals, Declare word groups locals ↔ Declare word others locals := by
  induction splits with
  | rel _ _ step => exact ⟨step.isRun_iff, fun _ => step.declare_iff⟩
  | refl => exact ⟨.rfl, fun _ => .rfl⟩
  | symm _ _ _ ih => exact ⟨ih.1.symm, fun locals => (ih.2 locals).symm⟩
  | trans _ _ _ _ _ first second =>
      exact ⟨first.1.trans second.1, fun locals => (first.2 locals).trans (second.2 locals)⟩

namespace Reader

variable {word : Keyword}

/-- Bindings are read from groups that declare them, up to something else. -/
theorem bindings_eq_ok {stream after : TokenStream} {locals : List LocalVariable} :
    bindings word stream = .ok (locals, after) ↔
      ∃ groups, stream = after.prepend groups.flatten ∧ Declare word groups locals ∧
        after.atGroup word = false := by
  constructor
  · intro read
    obtain ⟨bound, middle, taken, ended⟩ := bind_eq_ok.mp read
    cases ended
    obtain ⟨tokens, rfl, items, stopped⟩ :=
      repeatWhile_sound (fun _ taken => (bindingGroup_reads word).sound taken) taken
    obtain ⟨groups, rfl, each⟩ := Many.iff_forall₂.mp items
    exact ⟨groups, rfl, ⟨bound, each, rfl⟩, stopped⟩
  · rintro ⟨groups, rfl, ⟨bound, each, rfl⟩, stopped⟩
    exact (bindings_reads word).complete after
      ⟨bound, Many.iff_forall₂.mpr ⟨groups, rfl, each⟩, rfl⟩ stopped

theorem bindings_run {groups : List (List Token)} {after rest : TokenStream}
    {locals : List LocalVariable} (run : IsRun word groups) (ended : after.atGroup word = false) :
    bindings word (after.prepend groups.flatten) = .ok (locals, rest) ↔
      rest = after ∧ Declare word groups locals := by
  rw [bindings_eq_ok]
  constructor
  · rintro ⟨others, same, declared, stopped⟩
    obtain ⟨rfl, rfl⟩ := run.unique declared.isRun ended stopped same
    exact ⟨rfl, declared⟩
  · rintro ⟨rfl, declared⟩
    exact ⟨groups, rfl, declared, ended⟩

/-- A run that is split or merged is read as the same bindings. -/
theorem bindings_regrouped {groups others : List (List Token)} {after rest : TokenStream}
    {locals : List LocalVariable} (run : IsRun word groups) (ended : after.atGroup word = false)
    (splits : Relation.EqvGen (Splits word) groups others) :
    bindings word (after.prepend groups.flatten) = .ok (locals, rest) ↔
      bindings word (after.prepend others.flatten) = .ok (locals, rest) := by
  obtain ⟨runs, declares⟩ := regrouped splits
  rw [bindings_run run ended, bindings_run (runs.mp run) ended, declares]

end Reader

/-- The type that a function may name in front of its parameters, `( type x )`,
with what is in the place of `x`. -/
inductive NamesType : List Token → Option Token → Prop where
  | omitted : NamesType [] none
  | written {left head token right : Token} (opened : left.kind = .leftParen)
      (headed : head.kind = .keyword .typeForm) (closed : right.kind = .rightParen) :
      NamesType [left, head, token, right] (some token)

namespace Builder

variable {declarations final : Declarations} {groups others : List (List Token)}
  {after rest : TokenStream}

theorem declaredType_written {left head token right : Token} {index : Nat}
    {signature : Signature} (opened : left.kind = .leftParen)
    (headed : head.kind = .keyword .typeForm) (closed : right.kind = .rightParen) :
    declaredType declarations (after.prepend [left, head, token, right]) =
        .ok (((index, signature), final), rest) ↔
      final = declarations ∧ rest = after ∧ declarations.signatures[index]? = some signature ∧
        RefersTo (declarations.environment.names.get .type) token index := by
  rw [declaredType_eq_ok]
  constructor
  · rintro ⟨same, found, type, shape, @⟨_, _, _, _, _, -, -, refers, -⟩⟩
    obtain ⟨ahead, finish⟩ := after
    obtain ⟨behind, last⟩ := rest
    obtain ⟨⟨-, -, rfl, -, rfl⟩, rfl⟩ : (_ ∧ _ ∧ _ ∧ _ ∧ _) ∧ _ := by
      simpa [prepend, Reading.tokens, Reading.others] using shape
    exact ⟨same, rfl, found, refers⟩
  · rintro ⟨same, rfl, found, refers⟩
    exact ⟨same, found, _, rfl, .mk opened headed refers closed⟩

/-- The frame of a function does not depend on how its parameters are
grouped. -/
theorem typeUse_regrouped {type : List Token} {reference : Option Token} {used : Nat × Frame}
    (names : NamesType type reference) (run : IsRun .paramForm groups)
    (ended : after.atGroup .paramForm = false) (untyped : after.atGroup .typeForm = false)
    (splits : Relation.EqvGen (Splits .paramForm) groups others) :
    typeUse declarations (after.prepend (type ++ groups.flatten)) = .ok ((used, final), rest) ↔
      typeUse declarations (after.prepend (type ++ others.flatten)) =
        .ok ((used, final), rest) := by
  have signed {groups : List (List Token)} (run : IsRun .paramForm groups) :
      (after.prepend groups.flatten).atGroup .typeForm = false := by
    cases groups with
    | nil => exact untyped
    | cons group groups =>
        obtain ⟨⟨isGroup, headed⟩, -⟩ := isRun_cons.mp run
        have shown := (atGroup_iff.mp (atGroup_of_headed isGroup headed
          (after.prepend groups.flatten))).2
        rw [List.flatten_cons, prepend_append, atGroup, shown]
        simp
  have otherRun := (regrouped splits).1.mp run
  rw [typeUse_apply, typeUse_apply]
  cases names with
  | omitted =>
      rw [List.nil_append, List.nil_append, signed run, signed otherRun]
      simp only [Bool.false_eq_true, if_false, pure_bind, bind_eq_ok, lift_eq_ok,
        bindings_regrouped run ended splits]
  | @written left head token right opened headed closed =>
      have shown (stream : TokenStream) :
          (stream.prepend [left, head, token, right]).atGroup .typeForm = true := by
        rw [atGroup_prepend opened headed]
        simp
      rw [prepend_append, prepend_append, shown, shown]
      simp only [if_true, ← bind_pure_comp, bind_assoc, pure_bind, bind_eq_ok, lift_eq_ok,
        Prod.exists, declaredType_written opened headed closed]
      have same {locals : List LocalVariable} {behind : TokenStream} :=
        @bindings_regrouped .paramForm groups others after behind locals run ended splits
      constructor
      · rintro ⟨index, signature, _, _, ⟨rfl, rfl, named⟩, params, _, _, ⟨taken, rfl⟩, used⟩
        exact ⟨index, signature, _, _, ⟨rfl, rfl, named⟩, params, _, _, ⟨same.mp taken, rfl⟩, used⟩
      · rintro ⟨index, signature, _, _, ⟨rfl, rfl, named⟩, params, _, _, ⟨taken, rfl⟩, used⟩
        exact ⟨index, signature, _, _, ⟨rfl, rfl, named⟩, params, _, _, ⟨same.mpr taken, rfl⟩, used⟩

theorem functionField_regrouped {index typeIndex : Nat} {frame : Frame} {field : Field}
    (run : IsRun .localForm groups) (ended : after.atGroup .localForm = false)
    (splits : Relation.EqvGen (Splits .localForm) groups others) :
    functionField index typeIndex frame none declarations (after.prepend groups.flatten) =
        .ok ((field, final), rest) ↔
      functionField index typeIndex frame none declarations (after.prepend others.flatten) =
        .ok ((field, final), rest) := by
  simp only [functionField, bind_eq_ok, lift_eq_ok, bindings_regrouped run ended splits]

end Builder

/-- Bindings are read by their grammar.  Reading takes groups that declare the
variables and stops at the first group with another head word.  From a run of
groups with one head word it succeeds exactly if each of them lists types or
names one variable and gives its type, and then the variables of all groups are
put together in order.  Splitting and merging groups of nameless variables,
empty ones included, changes neither the variables, nor the type and the frame
of a function, nor the function that is read with its locals. -/
theorem bindings_by_grammar :
    (∀ word stream locals after, bindings word stream = .ok (locals, after) ↔
      ∃ groups, stream = after.prepend groups.flatten ∧ Declare word groups locals ∧
        after.atGroup word = false) ∧
    (∀ word groups (after : TokenStream), IsRun word groups → after.atGroup word = false →
      ((∃ result, bindings word (after.prepend groups.flatten) = .ok result) ↔
        ∀ group ∈ groups, ∃ locals, Group word Binding group locals) ∧
      (∀ locals rest, bindings word (after.prepend groups.flatten) = .ok (locals, rest) →
        rest = after ∧ Declare word groups locals) ∧
      ∀ others, Relation.EqvGen (Splits word) groups others → ∀ locals rest,
        bindings word (after.prepend groups.flatten) = .ok (locals, rest) ↔
          bindings word (after.prepend others.flatten) = .ok (locals, rest)) ∧
    (∀ declarations type reference groups others (after : TokenStream),
      NamesType type reference → IsRun .paramForm groups → after.atGroup .paramForm = false →
      after.atGroup .typeForm = false → Relation.EqvGen (Splits .paramForm) groups others →
      ∀ used final rest,
        Builder.typeUse declarations (after.prepend (type ++ groups.flatten)) =
            .ok ((used, final), rest) ↔
          Builder.typeUse declarations (after.prepend (type ++ others.flatten)) =
            .ok ((used, final), rest)) ∧
    ∀ declarations index typeIndex frame groups others (after : TokenStream),
      IsRun .localForm groups → after.atGroup .localForm = false →
      Relation.EqvGen (Splits .localForm) groups others → ∀ field final rest,
        Builder.functionField index typeIndex frame none declarations
            (after.prepend groups.flatten) = .ok ((field, final), rest) ↔
          Builder.functionField index typeIndex frame none declarations
            (after.prepend others.flatten) = .ok ((field, final), rest) := by
  refine ⟨fun word stream locals after => bindings_eq_ok, ?_, ?_, ?_⟩
  · intro word groups after run ended
    refine ⟨?_, fun locals rest read => (bindings_run run ended).mp read,
      fun others splits locals rest => bindings_regrouped run ended splits⟩
    rw [← Declare.iff_each]
    constructor
    · rintro ⟨⟨locals, rest⟩, read⟩
      exact ⟨locals, ((bindings_run run ended).mp read).2⟩
    · rintro ⟨locals, declared⟩
      exact ⟨(locals, after), (bindings_run run ended).mpr ⟨rfl, declared⟩⟩
  · intro declarations type reference groups others after names run ended untyped splits used final
      rest
    exact Builder.typeUse_regrouped names run ended untyped splits
  · intro declarations index typeIndex frame groups others after run ended splits field final rest
    exact Builder.functionField_regrouped run ended splits

/-- The tokens of a group of types. -/
def typeList (word : Keyword) (types : List ValueType) : List Token :=
  ⟨.leftParen, "(", .origin⟩ :: ⟨.keyword word, word.spelling, .origin⟩ ::
    (types.map fun type => ⟨.keyword type.keyword, type.keyword.spelling, .origin⟩) ++
    [⟨.rightParen, ")", .origin⟩]

theorem typeList_group (word : Keyword) (types : List ValueType) :
    Group word (Many TypeWord) (typeList word types) types := by
  have words : Many TypeWord (types.map fun type =>
      ⟨.keyword type.keyword, type.keyword.spelling, .origin⟩) types := by
    induction types with
    | nil => exact .nil
    | cons type types ih =>
        rw [List.map_cons, ← List.singleton_append]
        exact .cons ⟨_, rfl, rfl⟩ ih
  exact .mk rfl rfl words rfl

/-- Two types in one group. -/
def joinedTypes (word : Keyword) : List (List Token) :=
  [typeList word [.i32, .i64]]

/-- The same types in two groups, with an empty one between them. -/
def splitTypes (word : Keyword) : List (List Token) :=
  [typeList word [.i32], typeList word [], typeList word [.i64]]

/-- A parenthesis that closes what is in front of it. -/
def closingParen : TokenStream :=
  ⟨[⟨.rightParen, ")", .origin⟩], .origin⟩

theorem bindings_by_grammar_split :
    (∀ word, IsRun word (joinedTypes word) ∧
      Relation.EqvGen (Splits word) (joinedTypes word) (splitTypes word) ∧
      bindings word (closingParen.prepend (splitTypes word).flatten) =
        .ok ([.anonymous .i32, .anonymous .i64], closingParen)) ∧
    (∃ used final rest,
      Builder.typeUse .empty (closingParen.prepend (joinedTypes .paramForm).flatten) =
          .ok ((used, final), rest) ∧
        Builder.typeUse .empty (closingParen.prepend (splitTypes .paramForm).flatten) =
          .ok ((used, final), rest)) ∧
    ∃ field final rest,
      Builder.functionField 0 0 (.ofParams [] []) none .empty
          (closingParen.prepend (joinedTypes .localForm).flatten) = .ok ((field, final), rest) ∧
        Builder.functionField 0 0 (.ofParams [] []) none .empty
          (closingParen.prepend (splitTypes .localForm).flatten) = .ok ((field, final), rest) := by
  obtain ⟨-, reads, uses, locals⟩ := bindings_by_grammar
  have run (word : Keyword) : IsRun word (joinedTypes word) :=
    isRun_cons.mpr ⟨(typeList_group word _).isRun (Many.balanced TypeWord.balanced), nofun⟩
  have splits (word : Keyword) :
      Relation.EqvGen (Splits word) (joinedTypes word) (splitTypes word) := by
    have grouped := typeList_group word
    refine .trans _ [typeList word [.i32], typeList word [.i64]] _ (.rel _ _ ?_) (.rel _ _ ?_)
    · exact @Splits.group word [] [] _ _ _ [.i32] [.i64] (grouped _) (grouped _) (grouped _)
    · exact @Splits.empty word [_] [_] _ (grouped _)
  refine ⟨fun word => ⟨run word, splits word, ?_⟩, ?_, ?_⟩
  · refine ((reads word _ closingParen (run word) rfl).2.2 _ (splits word) _ _).mp ?_
    rw [Reader.bindings_run (run word) rfl]
    refine ⟨rfl, [_], .cons ((typeList_group word _).binding_iff.mpr rfl) .nil, rfl⟩
  · have used := uses .empty [] none _ _ closingParen .omitted (run _) rfl rfl (splits _)
    exact ⟨_, _, _, rfl, (used _ _ _).mp rfl⟩
  · have taken := locals .empty 0 0 (.ofParams [] []) _ _ closingParen (run _) rfl (splits _)
    exact ⟨_, _, _, rfl, (taken _ _ _).mp rfl⟩

end WatMachine
