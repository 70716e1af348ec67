import WatMachine.Proofs.Grammar.Declared
import WatMachine.Proofs.Grammar.Written

/-!
# Reading fields

A field that is read takes its group, claims an index for the definition that
the group writes and leaves everything else as it was declared.
-/

namespace WatMachine

open TokenStream WrittenDefinition

namespace Field

/-- The definition that a field keeps, with its index. -/
def definition? : Field → Option (IndexSpace × Nat)
  | function definition => some (.function, definition.index)
  | imported declaration =>
      match declaration.target with
      | .function index _ _ => some (.function, index)
      | .memory index _ => some (.memory, index)
      | .table index => some (.table, index)
      | .global index => some (.global, index)
  | _ => none

end Field

/-- Whether the body of a function is derived from the last of some tokens,
with the names declared so far. -/
def BodyRead (declarations : Declarations) (tokens : List Token)
    (function : FunctionDefinition) : Prop :=
  ∃ environment body, body <:+ tokens ∧
    (∀ space, space ≠ .type →
      environment.names.get space = declarations.environment.names.get space) ∧
    Derives .sequence ⟨environment, function.frame, []⟩ body function.body

def ExportRead (declarations : Declarations) (tokens : List Token) (target : Export) : Prop :=
  ∃ word reference, [word, reference] <:+: tokens ∧
    word.kind.keyword?.bind ExternalKind.ofKeyword? = some target.kind ∧
    RefersTo (declarations.environment.names.get target.kind.space) reference target.index

/-- What reading the group of a field does. -/
structure FieldRead (before : Declarations) (group : List Token) (part : List Field)
    (after : Declarations) : Prop where
  isGroup : IsGroup group
  isShown : IsShown group
  names : ∀ space, space ≠ .type →
    after.environment.names.get space = before.environment.names.get space
  claimed : ∀ space, after.claimed.get space =
    before.claimed.get space + (ofSpace space [group]).length
  indices : part.filterMap Field.definition? =
    ((ofGroup? group).filter (·.kept)).toList.map fun written =>
      (written.space, before.claimed.get written.space)
  bodies : ∀ function, .function function ∈ part → BodyRead before group.dropLast function
  exported : headWord? group = some .exportForm → ∃ target, part = [.exported target]
  exports : ∀ target, .exported target ∈ part →
    headWord? group = some .funcForm ∧ target.kind = .function ∧
        target.index = before.claimed.get .function ∨
      headWord? group = some .exportForm ∧ ExportRead before group target

theorem FieldRead.of_none {before after : Declarations} {group : List Token} {part : List Field}
    (isGroup : IsGroup group) (headed : headWord? group ≠ some .importForm)
    (nothing : (headWord? group).bind IndexSpace.ofKeyword? = none)
    (kept : before.Kept after) (undefined : part.filterMap Field.definition? = [])
    (bodies : ∀ function, .function function ∈ part → BodyRead before group.dropLast function)
    (exported : headWord? group = some .exportForm → ∃ target, part = [.exported target])
    (exports : ∀ target, .exported target ∈ part →
      headWord? group = some .exportForm ∧ ExportRead before group target) :
    FieldRead before group part after := by
  obtain ⟨name, written, shown⟩ := isGroup.written headed
  rw [nothing, Option.map_none] at written
  refine ⟨isGroup, ?_, kept.names, ?_, ?_, bodies, exported, ?_⟩
  · intro rest
    rw [shown, nothing, written]
    rfl
  · intro space
    rw [kept.claimed, ofSpace_singleton_of_none written]
    rfl
  · rw [undefined, written]
    rfl
  · intro target inside
    exact .inr (exports target inside)

/-- A group that writes a definition claims its index. -/
theorem FieldRead.of_some {before after : Declarations} {group : List Token} {part : List Field}
    {space : IndexSpace} (isGroup : IsGroup group) (headed : headWord? group ≠ some .importForm)
    (defines : (headWord? group).bind IndexSpace.ofKeyword? = some space)
    (kept : Declarations.Kept { before with
      claimed := before.claimed.set space (before.claimed.get space + 1) } after)
    (indices : part.filterMap Field.definition? =
      if space = .function then [(space, before.claimed.get space)] else [])
    (bodies : ∀ function, .function function ∈ part → BodyRead before group.dropLast function)
    (exports : ∀ target, .exported target ∈ part → headWord? group = some .funcForm ∧
      target.kind = .function ∧ target.index = before.claimed.get .function) :
    FieldRead before group part after := by
  obtain ⟨name, written, shown⟩ := isGroup.written headed
  rw [defines, Option.map_some] at written
  refine ⟨isGroup, ?_, kept.names, ?_, ?_, bodies, ?_, ?_⟩
  · intro rest
    rw [shown, defines, written]
    rfl
  · intro other
    rw [kept.claimed, ofSpace_singleton_of_some written, PerSpace.get_set]
    split <;> simp_all
  · rw [indices, written]
    by_cases isFunction : space = .function <;> simp [isFunction, Option.filter]
  · intro isExport
    rw [isExport] at defines
    cases defines
  · intro target inside
    exact .inl (exports target inside)

namespace Builder

open Reader Declarations

variable {declarations final : Declarations} {stream rest : TokenStream}

theorem claim_eq_ok {space : IndexSpace} {index : Nat} :
    claim space declarations stream = .ok ((index, final), rest) ↔
      index = declarations.claimed.get space ∧
        final = { declarations with claimed := declarations.claimed.set space (index + 1) } ∧
        rest = stream := by
  constructor
  · intro run
    cases run
    exact ⟨rfl, rfl, rfl⟩
  · rintro ⟨rfl, rfl, rfl⟩
    rfl

theorem inlineExport_isBalanced : IsBalanced inlineExport :=
  .group string_isBalanced fun _ => .pure _

theorem inlineImport_isBalanced : IsBalanced inlineImport := by
  have names : IsBalanced (string >>= fun source => string >>= fun name => pure (source, name)) :=
    .bind string_isBalanced fun _ => .bind string_isBalanced fun _ => .pure _
  have grouped : IsBalanced (openGroup .importForm >>= fun _ =>
      (string >>= fun source => string >>= fun name => pure (source, name)) >>= fun value =>
        rightParen >>= fun _ => pure value) :=
    .group names fun _ => .pure _
  simpa only [inlineImport, bind_assoc, pure_bind] using grouped

theorem body_sound {environment : Environment} {frame : Frame} {stream after : TokenStream}
    {code : List Instruction} (run : Reader.body environment frame stream = .ok (code, after)) :
    ∃ tokens, stream = after.prepend tokens ∧
      Derives .sequence ⟨environment, frame, []⟩ tokens code := by
  obtain ⟨_, _, shown, read⟩ := Reader.bind_eq_ok.mp run
  cases shown
  exact (phraseSound (3 * (stream.ahead.length + 1))).1 .sequence read

/-- Whether the rest of a function up to its closing parenthesis is read, for a
function of a given index. -/
def EndsFunction (index : Nat) (action : Builder (List Field)) : Prop :=
  ∀ declarations stream part after rest,
    action declarations stream = .ok ((part, after), rest) →
    ∃ inner right, stream = rest.prepend (inner ++ [right]) ∧ Balanced inner ∧
      right.kind = .rightParen ∧ Kept declarations after ∧
      part.filterMap Field.definition? = [(.function, index)] ∧
      (∀ function, .function function ∈ part → BodyRead declarations inner function) ∧
      ∀ target, .exported target ∈ part → target.kind = .function ∧ target.index = index

theorem EndsFunction.bind {α : Type} {index : Nat} {first : Builder α}
    {next : α → Builder (List Field)} (keeps : Keeps first)
    (ends : ∀ value, EndsFunction index (next value)) : EndsFunction index (first >>= next) := by
  intro declarations stream part after rest run
  obtain ⟨value, middle, between, taken, read⟩ := bind_eq_ok.mp run
  obtain ⟨front, rfl, isFront, kept⟩ := keeps _ _ _ _ _ taken
  obtain ⟨inner, right, rfl, within, isRight, keptToo, indices, bodies, exports⟩ :=
    ends value _ _ _ _ _ read
  refine ⟨front ++ inner, right, by simp [prepend], isFront.append within, isRight,
    kept.trans keptToo, indices, ?_, exports⟩
  intro function inside
  obtain ⟨environment, body, last, names, derived⟩ := bodies function inside
  refine ⟨environment, body, last.trans (List.suffix_append _ _), ?_, derived⟩
  intro space other
  exact (names space other).trans (kept.names space other)

theorem EndsFunction.getStream {index : Nat} {next : TokenStream → Builder (List Field)}
    (ends : ∀ stream, EndsFunction index (next stream)) :
    EndsFunction index (getThe TokenStream >>= next) := by
  intro declarations stream part after rest run
  obtain ⟨_, _, _, shown, read⟩ := bind_eq_ok.mp run
  cases shown
  exact ends stream _ _ _ _ _ read

/-- The end of a function makes its field, followed by its inline exports. -/
theorem functionField_ends (index typeIndex : Nat) (frame : Frame)
    (imported : Option (String × String)) (exportNames : List String) :
    EndsFunction index (do
      let field ← functionField index typeIndex frame imported
      return field :: exportNames.map fun name => .exported ⟨name, .function, index⟩) := by
  intro declarations stream part after rest run
  obtain ⟨field, middle, between, taken, ended⟩ := bind_eq_ok.mp run
  cases ended
  have undefined : (exportNames.map fun name => Field.exported ⟨name, .function, index⟩).filterMap
      Field.definition? = [] := by
    simp [List.filterMap_map, Function.comp_def, Field.definition?]
  cases imported with
  | some source =>
      simp only [functionField, bind_eq_ok, lift_eq_ok] at taken
      obtain ⟨⟨⟩, _, _, ⟨closed, rfl⟩, ended⟩ := taken
      cases ended
      obtain ⟨right, rfl, isRight⟩ := rightParen_eq_ok.mp closed
      refine ⟨[], right, rfl, .nil, isRight, .refl _, ?_, ?_, ?_⟩
      · rw [List.filterMap_cons, undefined]
        rfl
      · simp
      · simp
  | none =>
      simp only [functionField, bind_eq_ok, lift_eq_ok] at taken
      obtain ⟨locals, _, _, ⟨bound, rfl⟩, _, _, _, shown, body, _, _, ⟨followed, rfl⟩, ⟨⟩, _, _,
        ⟨closed, rfl⟩, ended⟩ := taken
      cases shown
      cases ended
      obtain ⟨front, rfl, isFront⟩ := bindings_isBalanced _ _ _ _ bound
      obtain ⟨tokens, rfl, derived⟩ := body_sound followed
      obtain ⟨right, rfl, isRight⟩ := rightParen_eq_ok.mp closed
      refine ⟨front ++ tokens, right, by simp [prepend], isFront.append derived.balanced, isRight,
        .refl _, ?_, ?_, ?_⟩
      · rw [List.filterMap_cons, undefined]
        rfl
      · intro function inside
        have same : function = ⟨index, typeIndex, { frame with locals := frame.locals ++ locals },
            body⟩ := by
          simpa using inside
        subst same
        exact ⟨_, tokens, List.suffix_append _ _, fun _ _ => rfl, derived⟩
      · simp

theorem function_ends (index : Nat) :
    EndsFunction index (do
      let _ ← (Reader.identifier? : Builder _)
      let exportNames ← Reader.many (TokenStream.atGroup .exportForm) inlineExport
      let imported ←
        if (← getThe TokenStream).atGroup .importForm then some <$> inlineImport else pure none
      let (typeIndex, frame) ← typeUse
      let field ← functionField index typeIndex frame imported
      return field :: exportNames.map fun name => .exported ⟨name, .function, index⟩) := by
  have typed (imported : Option (String × String)) (exportNames : List String) :
      EndsFunction index (do
        let (typeIndex, frame) ← typeUse
        let field ← functionField index typeIndex frame imported
        return field :: exportNames.map fun name => .exported ⟨name, .function, index⟩) :=
    .bind typeUse_keeps fun _ => functionField_ends _ _ _ _ _
  refine .bind (.lift identifier?_isBalanced) fun _ => ?_
  refine .bind (.lift (.many inlineExport_isBalanced)) fun exportNames => ?_
  refine .getStream fun stream => ?_
  split
  · refine .bind (.bind (.lift inlineImport_isBalanced) fun _ => .pure _) fun imported => ?_
    exact typed imported exportNames
  · exact .bind (.pure none) fun imported => typed imported exportNames

theorem function_read {part : List Field}
    (run : function declarations stream = .ok ((part, final), rest)) :
    ∃ group, stream = rest.prepend group ∧ FieldRead declarations group part final := by
  obtain ⟨⟨⟩, _, _, opens, continued⟩ := bind_eq_ok.mp run
  obtain ⟨opened, rfl⟩ := lift_eq_ok.mp opens
  obtain ⟨index, _, _, claims, others⟩ := bind_eq_ok.mp continued
  obtain ⟨rfl, rfl, rfl⟩ := claim_eq_ok.mp claims
  obtain ⟨inner, right, rfl, within, isRight, kept, indices, bodies, exports⟩ :=
    function_ends _ _ _ _ _ _ others
  obtain ⟨left, head, rfl, isLeft, isHead⟩ := openGroup_eq_ok.mp opened
  have headed : headWord? (left :: head :: inner ++ [right]) = some .funcForm := by
    simp [headWord?, isHead, TokenKind.keyword?]
  refine ⟨left :: head :: inner ++ [right], rfl, ?_⟩
  refine .of_some (within.isGroup isLeft isHead isRight) (by rw [headed]; decide)
    (by rw [headed]; rfl) kept indices ?_ ?_
  · intro function inside
    obtain ⟨environment, body, last, names, derived⟩ := bodies function inside
    refine ⟨environment, body, ?_, names, derived⟩
    rw [List.dropLast_concat]
    exact last.trans (List.suffix_append [left, head] inner)
  · intro target inside
    exact ⟨headed, exports target inside⟩

theorem externalKind_eq_ok {expected : Expectation} {kind : ExternalKind} {after : TokenStream} :
    externalKind expected stream = .ok (kind, after) ↔
      ∃ token word, stream = after.prepend [token] ∧ token.kind = .keyword word ∧
        ExternalKind.ofKeyword? word = some kind := by
  rw [externalKind, Reader.bind_eq_ok]
  constructor
  · rintro ⟨⟨_, span⟩, middle, accepted, ended⟩
    cases ended
    obtain ⟨token, rfl, selected, -⟩ := (accept_eq_ok rfl).mp accepted
    obtain ⟨word, isWord, isKind⟩ := Option.bind_eq_some_iff.mp selected
    exact ⟨token, word, rfl, TokenKind.keyword?_eq_some.mp isWord, isKind⟩
  · rintro ⟨token, word, rfl, isWord, isKind⟩
    refine ⟨_, after, (accept_eq_ok rfl).mpr ⟨token, rfl, ?_, rfl⟩, rfl⟩
    rw [isWord]
    exact isKind

theorem exportField_read {target : Export}
    (run : exportField declarations stream = .ok ((target, final), rest)) :
    ∃ group, stream = rest.prepend group ∧
      FieldRead declarations group [.exported target] final := by
  simp only [exportField, bind_eq_ok, lift_eq_ok] at run
  obtain ⟨⟨⟩, _, _, ⟨opened, rfl⟩, name, _, _, ⟨named, rfl⟩, ⟨⟩, _, _, ⟨opens, rfl⟩, kind, _, _,
    ⟨described, rfl⟩, _, _, _, shown, ⟨index, span⟩, _, _, ⟨resolved, rfl⟩, ⟨⟩, _, _, ⟨closes, rfl⟩,
    ⟨⟩, _, _, ⟨closed, rfl⟩, ended⟩ := run
  cases shown
  cases ended
  obtain ⟨left, head, rfl, isLeft, isHead⟩ := openGroup_eq_ok.mp opened
  obtain ⟨text, rfl, isText⟩ := string_eq_ok.mp named
  obtain ⟨opening, rfl, isOpening⟩ := leftParen_eq_ok.mp opens
  obtain ⟨token, word, rfl, isWord, isKind⟩ := externalKind_eq_ok.mp described
  obtain ⟨reference, rfl, refers, -⟩ := definitionIndex_eq_ok.mp resolved
  obtain ⟨closing, rfl, isClosing⟩ := rightParen_eq_ok.mp closes
  obtain ⟨right, rfl, isRight⟩ := rightParen_eq_ok.mp closed
  have inner : Balanced [text, opening, token, reference, closing] := by
    have target : Balanced [token, reference] :=
      (Balanced.atom (by rw [isWord]; rfl)).append (.atom refers.isAtom)
    exact (Balanced.atom (by rw [isText]; rfl)).append (.group isOpening target isClosing .nil)
  have headed : headWord? [left, head, text, opening, token, reference, closing, right] =
      some .exportForm := by
    simp [headWord?, isHead, TokenKind.keyword?]
  refine ⟨[left, head, text, opening, token, reference, closing, right], rfl, ?_⟩
  refine .of_none (inner.isGroup isLeft isHead isRight) (by rw [headed]; decide)
    (by rw [headed]; rfl) (.refl _) rfl (by simp) (fun _ => ⟨_, rfl⟩) ?_
  intro target inside
  obtain rfl : target = ⟨name, kind, index⟩ := by simpa using inside
  refine ⟨headed, token, reference, ⟨[left, head, text, opening], [closing, right], rfl⟩, ?_,
    refers⟩
  rw [isWord]
  exact isKind

theorem current_isBalanced : IsBalanced current := by
  rintro stream _ after ⟨⟩
  exact ⟨[], rfl, .nil⟩

theorem limits_isBalanced : IsBalanced limits := by
  refine .bind (natural_isBalanced _) fun min => .bind current_isBalanced fun token => ?_
  split
  · exact .bind (natural_isBalanced _) fun _ => .pure _
  · exact .pure _

/-- The inner group of an import is read up to its end, whatever it holds. -/
theorem importTarget_ends {index : Nat} {kind : ExternalKind} {target : ImportTarget}
    (run : importTarget index kind declarations stream = .ok ((target, final), rest)) :
    ∃ inner right, stream = rest.prepend (inner ++ [right]) ∧ Balanced inner ∧
      right.kind = .rightParen ∧ Kept declarations final ∧
      ∀ source name, (Field.imported ⟨source, name, target⟩).definition? =
        some (kind.space, index) := by
  cases kind with
  | function =>
      simp only [importTarget, bind_eq_ok, lift_eq_ok] at run
      obtain ⟨_, _, _, ⟨named, rfl⟩, ⟨typeIndex, frame⟩, _, _, typed, ⟨⟩, _, _, ⟨closed, rfl⟩,
        ended⟩ := run
      cases ended
      obtain ⟨name, rfl, isName⟩ := identifier?_isBalanced _ _ _ named
      obtain ⟨type, rfl, isType, kept⟩ := typeUse_keeps _ _ _ _ _ typed
      obtain ⟨right, rfl, isRight⟩ := rightParen_eq_ok.mp closed
      exact ⟨name ++ type, right, by simp [prepend], isName.append isType, isRight, kept,
        fun _ _ => rfl⟩
  | memory =>
      simp only [importTarget, bind_eq_ok, lift_eq_ok] at run
      obtain ⟨_, _, _, ⟨named, rfl⟩, _, _, _, ⟨limited, rfl⟩, ⟨⟩, _, _, ⟨closed, rfl⟩, ended⟩ := run
      cases ended
      obtain ⟨name, rfl, isName⟩ := identifier?_isBalanced _ _ _ named
      obtain ⟨numbers, rfl, isNumbers⟩ := limits_isBalanced _ _ _ limited
      obtain ⟨right, rfl, isRight⟩ := rightParen_eq_ok.mp closed
      exact ⟨name ++ numbers, right, by simp [prepend], isName.append isNumbers, isRight, .refl _,
        fun _ _ => rfl⟩
  | table =>
      simp only [importTarget, bind_eq_ok, lift_eq_ok] at run
      obtain ⟨⟨⟩, _, _, ⟨closed, rfl⟩, ended⟩ := run
      cases ended
      obtain ⟨inner, right, rfl, within, isRight⟩ := closeGroup_eq_ok.mp closed
      exact ⟨inner, right, rfl, within, isRight, .refl _, fun _ _ => rfl⟩
  | global =>
      simp only [importTarget, bind_eq_ok, lift_eq_ok] at run
      obtain ⟨⟨⟩, _, _, ⟨closed, rfl⟩, ended⟩ := run
      cases ended
      obtain ⟨inner, right, rfl, within, isRight⟩ := closeGroup_eq_ok.mp closed
      exact ⟨inner, right, rfl, within, isRight, .refl _, fun _ _ => rfl⟩

theorem importField_read {declaration : Import}
    (run : importField declarations stream = .ok ((declaration, final), rest)) :
    ∃ group, stream = rest.prepend group ∧
      FieldRead declarations group [.imported declaration] final := by
  simp only [importField, bind_eq_ok, lift_eq_ok, claim_eq_ok] at run
  obtain ⟨⟨⟩, _, _, ⟨opened, rfl⟩, sourceName, _, _, ⟨sourced, rfl⟩, importName, _, _, ⟨named, rfl⟩,
    ⟨⟩, _, _, ⟨opens, rfl⟩, kind, _, _, ⟨described, rfl⟩, _, _, _, ⟨rfl, rfl, rfl⟩, target, _, _,
    targeted, ⟨⟩, _, _, ⟨closed, rfl⟩, ended⟩ := run
  cases ended
  obtain ⟨left, head, rfl, isLeft, isHead⟩ := openGroup_eq_ok.mp opened
  obtain ⟨source, rfl, isSource⟩ := string_eq_ok.mp sourced
  obtain ⟨name, rfl, isName⟩ := string_eq_ok.mp named
  obtain ⟨opening, rfl, isOpening⟩ := leftParen_eq_ok.mp opens
  obtain ⟨token, word, rfl, isWord, isKind⟩ := externalKind_eq_ok.mp described
  obtain ⟨inner, closing, rfl, within, isClosing, kept, defined⟩ := importTarget_ends targeted
  obtain ⟨right, rfl, isRight⟩ := rightParen_eq_ok.mp closed
  obtain ⟨third, more, shape⟩ : ∃ third more, inner ++ [closing] = third :: more :=
    List.exists_cons_of_ne_nil (by simp)
  have layout :
      left :: head :: (source :: name :: (opening :: token :: inner ++ [closing])) ++ [right] =
        left :: head :: source :: name :: opening :: token :: third :: (more ++ [right]) := by
    simp [shape]
  have isGroup : IsGroup (left :: head ::
      (source :: name :: (opening :: token :: inner ++ [closing])) ++ [right]) := by
    have strings : Balanced [source, name] :=
      (Balanced.atom (by rw [isSource]; rfl)).append (.atom (by rw [isName]; rfl))
    have whole := strings.append (within.isGroup isOpening isWord isClosing).balanced
    exact whole.isGroup isLeft isHead isRight
  rw [layout] at isGroup
  have written : ofGroup? (left :: head :: source :: name :: opening :: token :: third ::
      (more ++ [right])) = some ⟨kind.space, third.kind.identifier?, true⟩ :=
    ofGroup?_of_import isLeft isHead isSource isName isOpening isWord isKind
  refine ⟨left :: head :: source :: name :: opening :: token :: third :: (more ++ [right]), ?_, ?_⟩
  · rw [← layout]
    simp [prepend]
  refine ⟨isGroup, ?_, kept.names, ?_, ?_, by simp, ?_, by simp⟩
  · intro stream
    rw [definition?_of_import isHead isWord isKind, written]
    rfl
  · intro space
    rw [kept.claimed, ofSpace_singleton_of_some written, PerSpace.get_set]
    split <;> simp_all
  · simp [defined, written, Option.filter]
  · simp [headWord?, isHead, TokenKind.keyword?]

theorem skipGroup_isGroup {stream after : TokenStream}
    (run : skipGroup stream = .ok ((), after)) :
    ∃ group, stream = after.prepend group ∧ IsGroup group := by
  obtain ⟨left, inner, right, rfl, isLeft, within, isRight⟩ := skipGroup_eq_ok.mp run
  exact ⟨_, rfl, .mk isLeft within isRight⟩

/-- A type was declared before, so that its group is skipped. -/
theorem typeField_read {definition : TypeDefinition}
    (run : typeField declarations stream = .ok ((definition, final), rest))
    (shown : (stream.nth 1).kind.keyword? = some .typeForm) :
    ∃ group, stream = rest.prepend group ∧
      FieldRead declarations group [.type definition] final := by
  simp only [typeField, bind_eq_ok] at run
  obtain ⟨_, _, _, gets, continued⟩ := run
  cases gets
  cases pending : declarations.pendingTypes with
  | nil =>
      simp only [pending, lift_eq_ok] at continued
      cases continued.1
  | cons next others =>
      simp only [pending, bind_eq_ok, lift_eq_ok] at continued
      obtain ⟨⟨⟩, _, _, sets, ⟨⟩, _, _, ⟨skipped, rfl⟩, ended⟩ := continued
      cases sets
      cases ended
      obtain ⟨group, rfl, isGroup⟩ := skipGroup_isGroup skipped
      rw [isGroup.nth_one] at shown
      refine ⟨group, rfl, .of_none isGroup (by rw [shown]; decide) (by rw [shown]; rfl) ?_ rfl
        (by simp) (by simp [shown]) (by simp)⟩
      exact ⟨fun _ _ => rfl, rfl⟩

/-- A field that is skipped claims the index of what it defines. -/
theorem skippedField_read {word : Option Keyword}
    (run : skippedField word declarations stream = .ok (((), final), rest))
    (shown : (stream.nth 1).kind.keyword? = word) (noImport : word ≠ some .importForm)
    (noFunction : word ≠ some .funcForm) (noExport : word ≠ some .exportForm) :
    ∃ group, stream = rest.prepend group ∧ FieldRead declarations group [] final := by
  cases defines : word.bind IndexSpace.ofKeyword? with
  | none =>
      simp only [skippedField, defines, lift_eq_ok] at run
      obtain ⟨skipped, rfl⟩ := run
      obtain ⟨group, rfl, isGroup⟩ := skipGroup_isGroup skipped
      rw [isGroup.nth_one] at shown
      subst shown
      exact ⟨group, rfl, .of_none isGroup noImport defines (.refl _) rfl (by simp)
        (fun isExport => absurd isExport noExport) (by simp)⟩
  | some space =>
      simp only [skippedField, defines, bind_eq_ok, lift_eq_ok, claim_eq_ok] at run
      obtain ⟨_, _, _, ⟨rfl, rfl, rfl⟩, skipped, rfl⟩ := run
      obtain ⟨group, rfl, isGroup⟩ := skipGroup_isGroup skipped
      rw [isGroup.nth_one] at shown
      subst shown
      have different : space ≠ .function := by
        rintro rfl
        obtain ⟨keyword, isHead, isSpace⟩ := Option.bind_eq_some_iff.mp defines
        cases keyword <;> cases isSpace
        exact noFunction isHead
      exact ⟨group, rfl, .of_some isGroup noImport defines (.refl _) (by simp [different]) (by simp)
        (by simp)⟩

/-- Reading a field takes its group and claims the index of what it defines. -/
theorem field_read {part : List Field}
    (run : field declarations stream = .ok ((part, final), rest)) :
    ∃ group, stream = rest.prepend group ∧ FieldRead declarations group part final := by
  obtain ⟨_, _, _, gets, continued⟩ := bind_eq_ok.mp run
  cases gets
  by_cases isFunction : (stream.nth 1).kind.keyword? = some .funcForm
  · simp only [isFunction] at continued
    exact function_read continued
  by_cases isExport : (stream.nth 1).kind.keyword? = some .exportForm
  · simp only [isExport] at continued
    obtain ⟨target, _, _, taken, ended⟩ := bind_eq_ok.mp continued
    cases ended
    exact exportField_read taken
  by_cases isImport : (stream.nth 1).kind.keyword? = some .importForm
  · simp only [isImport] at continued
    obtain ⟨declaration, _, _, taken, ended⟩ := bind_eq_ok.mp continued
    cases ended
    exact importField_read taken
  by_cases isType : (stream.nth 1).kind.keyword? = some .typeForm
  · simp only [isType] at continued
    obtain ⟨definition, _, _, taken, ended⟩ := bind_eq_ok.mp continued
    cases ended
    exact typeField_read taken isType
  · simp only at continued
    obtain ⟨⟨⟩, _, _, taken, ended⟩ := bind_eq_ok.mp continued
    cases ended
    exact skippedField_read taken rfl isImport isFunction isExport

end Builder

end WatMachine
