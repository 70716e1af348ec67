import WatMachine.Proofs.Grammar.FunctionReaders

/-!
# Fields are read by their grammar

Reading a field takes exactly the tokens of a field as its grammar writes it,
with the same effect on the declarations.  The word in its second place says
how a field is read, and nothing behind its closing parenthesis matters.
-/

namespace WatMachine

open TokenStream Reading Reader

namespace Builder

variable {declarations final : Declarations} {stream rest : TokenStream}

section Exports

theorem exportField_sound {target : Export}
    (run : exportField declarations stream = .ok ((target, final), rest)) :
    ∃ readings, stream = rest.prepend (tokens readings) ∧
      FieldWritten declarations readings [.exported target] final := by
  simp only [exportField, bind_eq_ok, lift_eq_ok] at run
  obtain ⟨⟨⟩, _, _, ⟨opened, rfl⟩, name, _, _, ⟨named, rfl⟩, ⟨⟩, _, _, ⟨opens, rfl⟩, kind, _, _,
    ⟨described, rfl⟩, _, _, _, shown, ⟨index, span⟩, _, _, ⟨resolved, rfl⟩, ⟨⟩, _, _, ⟨closes, rfl⟩,
    ⟨⟩, _, _, ⟨closed, rfl⟩, ended⟩ := run
  cases shown
  cases ended
  obtain ⟨left, head, rfl, isLeft, isHead⟩ := openGroup_eq_ok.mp opened
  obtain ⟨text, rfl, isText⟩ := string_eq_ok.mp named
  obtain ⟨opening, rfl, isOpening⟩ := leftParen_eq_ok.mp opens
  obtain ⟨word, keyword, rfl, isWord, isKind⟩ := externalKind_eq_ok.mp described
  obtain ⟨token, rfl, refers, -⟩ := definitionIndex_eq_ok.mp resolved
  obtain ⟨closing, rfl, isClosing⟩ := rightParen_eq_ok.mp closes
  obtain ⟨right, rfl, isRight⟩ := rightParen_eq_ok.mp closed
  exact ⟨_, rfl, .exported isLeft isHead isText isOpening isWord isKind refers isClosing isRight⟩

theorem exportField_complete {left head text opening word token closing right : Token}
    {name : String} {keyword : Keyword} {kind : ExternalKind} {index : Nat}
    (opened : left.kind = .leftParen) (headed : head.kind = .keyword .exportForm)
    (named : text.kind = .string name) (opens : opening.kind = .leftParen)
    (described : word.kind = .keyword keyword)
    (isKind : ExternalKind.ofKeyword? keyword = some kind)
    (refers : RefersTo (declarations.environment.names.get kind.space) token index)
    (closes : closing.kind = .rightParen) (closed : right.kind = .rightParen) :
    exportField declarations
        (rest.prepend [left, head, text, opening, word, token, closing, right]) =
      .ok ((⟨name, kind, index⟩, declarations), rest) := by
  simp only [exportField, bind_eq_ok, lift_eq_ok]
  exact ⟨(), _, _, ⟨openGroup_eq_ok.mpr ⟨left, head, rfl, opened, headed⟩, rfl⟩,
    name, _, _, ⟨string_eq_ok.mpr ⟨text, rfl, named⟩, rfl⟩,
    (), _, _, ⟨leftParen_eq_ok.mpr ⟨opening, rfl, opens⟩, rfl⟩,
    kind, _, _, ⟨externalKind_eq_ok.mpr ⟨word, keyword, rfl, described, isKind⟩, rfl⟩,
    declarations, _, _, rfl,
    (index, token.span), _, _, ⟨definitionIndex_eq_ok.mpr ⟨token, rfl, refers, rfl⟩, rfl⟩,
    (), _, _, ⟨rightParen_eq_ok.mpr ⟨closing, rfl, closes⟩, rfl⟩,
    (), _, _, ⟨rightParen_eq_ok.mpr ⟨right, rfl, closed⟩, rfl⟩, rfl⟩

end Exports

section Imports

theorem natural_eq_ok {expected : Expectation} {after : TokenStream} {number : Nat} :
    natural expected stream = .ok (number, after) ↔
      ∃ token, stream = after.prepend [token] ∧ naturalValue? token.kind = some number := by
  rw [natural, Reader.bind_eq_ok]
  constructor
  · rintro ⟨⟨_, span⟩, middle, accepted, ended⟩
    cases ended
    obtain ⟨token, rfl, selected, -⟩ := (accept_eq_ok rfl).mp accepted
    exact ⟨token, rfl, selected⟩
  · rintro ⟨token, rfl, selected⟩
    exact ⟨_, after, (accept_eq_ok rfl).mpr ⟨token, rfl, selected, rfl⟩, rfl⟩

theorem limits_reads :
    Reads limits LimitsWritten (fun after => after.current.kind = .rightParen) where
  sound {stream limits after} read := by
    obtain ⟨min, behind, least, continued⟩ := Reader.bind_eq_ok.mp read
    obtain ⟨_, _, shown, following⟩ := Reader.bind_eq_ok.mp continued
    cases shown
    obtain ⟨first, rfl, isMin⟩ := natural_eq_ok.mp least
    cases kind : behind.current.kind with
    | integer value =>
        simp only [kind] at following
        obtain ⟨max, last, most, ended⟩ := Reader.bind_eq_ok.mp following
        cases ended
        obtain ⟨second, rfl, isMax⟩ := natural_eq_ok.mp most
        exact ⟨[first, second], rfl, .both isMin isMax⟩
    | _ =>
        simp only [kind] at following
        cases following
        exact ⟨[first], rfl, .least isMin⟩
  complete after := by
    rintro (@⟨token, min, number⟩ | @⟨first, second, min, max, number, other⟩) closed
    · have least : natural .memoryLimit (after.prepend [token]) = .ok (min, after) :=
        natural_eq_ok.mpr ⟨token, rfl, number⟩
      simp [limits, least, closed]
    · have least : natural .memoryLimit (after.prepend [first, second]) =
          .ok (min, after.prepend [second]) := natural_eq_ok.mpr ⟨first, rfl, number⟩
      have most : natural .memoryLimit (after.prepend [second]) = .ok (max, after) :=
        natural_eq_ok.mpr ⟨second, rfl, other⟩
      obtain ⟨value, isInteger⟩ : ∃ value, second.kind = .integer value := by
        revert other
        cases second.kind <;> simp [naturalValue?]
      simp [limits, least, most, isInteger]

theorem importTarget_sound {index : Nat} {kind : ExternalKind} {target : ImportTarget}
    (run : importTarget index kind declarations stream = .ok ((target, final), rest)) :
    ∃ inner right, stream = rest.prepend (tokens inner ++ [right]) ∧
      ImportTargetWritten declarations index kind inner target final ∧
      right.kind = .rightParen := by
  cases kind with
  | function =>
      simp only [importTarget, bind_eq_ok, lift_eq_ok] at run
      obtain ⟨_, _, _, ⟨named, rfl⟩, ⟨typeIndex, frame⟩, _, _, typed, ⟨⟩, _, _, ⟨closed, rfl⟩,
        ended⟩ := run
      cases ended
      obtain ⟨name, rfl, isName, -⟩ := identifier?_eq_ok.mp named
      obtain ⟨type, rfl, isType⟩ := typeUse_sound typed
      obtain ⟨right, rfl, isRight⟩ := rightParen_eq_ok.mp closed
      exact ⟨_, right, by simp [prepend], .function isName isType, isRight⟩
  | memory =>
      simp only [importTarget, bind_eq_ok, lift_eq_ok] at run
      obtain ⟨_, _, _, ⟨named, rfl⟩, _, _, _, ⟨limited, rfl⟩, ⟨⟩, _, _, ⟨closed, rfl⟩, ended⟩ := run
      cases ended
      obtain ⟨name, rfl, isName, -⟩ := identifier?_eq_ok.mp named
      obtain ⟨numbers, rfl, areLimits⟩ := limits_reads.sound limited
      obtain ⟨right, rfl, isRight⟩ := rightParen_eq_ok.mp closed
      exact ⟨_, right, by simp [prepend], .memory isName areLimits, isRight⟩
  | table =>
      simp only [importTarget, bind_eq_ok, lift_eq_ok] at run
      obtain ⟨⟨⟩, _, _, ⟨closed, rfl⟩, ended⟩ := run
      cases ended
      obtain ⟨inner, right, rfl, within, isRight⟩ := closeGroup_eq_ok.mp closed
      exact ⟨_, right, by simp, .table within, isRight⟩
  | global =>
      simp only [importTarget, bind_eq_ok, lift_eq_ok] at run
      obtain ⟨⟨⟩, _, _, ⟨closed, rfl⟩, ended⟩ := run
      cases ended
      obtain ⟨inner, right, rfl, within, isRight⟩ := closeGroup_eq_ok.mp closed
      exact ⟨_, right, by simp, .global within, isRight⟩

theorem importTarget_complete {index : Nat} {kind : ExternalKind} {inner : List Reading}
    {target : ImportTarget} {right : Token}
    (written : ImportTargetWritten declarations index kind inner target final)
    (closed : right.kind = .rightParen) :
    importTarget index kind declarations (rest.prepend (tokens inner ++ [right])) =
      .ok ((target, final), rest) := by
  have closes := rightParen_eq_ok.mpr ⟨right, (rfl : _ = rest.prepend _), closed⟩
  have ended {words : List Keyword} : Beyond words (rest.prepend [right]) := .of_rightParen closed
  cases written with
  | @function name label type typeIndex frame _ named typed =>
      have used : typeUse declarations ((rest.prepend [right]).prepend (tokens type)) =
          .ok (((typeIndex, frame), final), rest.prepend [right]) := typeUse_complete typed ended
      have typeBeyond : Beyond [] ((rest.prepend [right]).prepend (tokens type)) :=
        .typeUse typed ended (by decide)
      have labelled : identifier?
          (((rest.prepend [right]).prepend (tokens type)).prepend name) = .ok (label, _) :=
        identifier?_eq_ok.mpr ⟨name, rfl, named, fun _ => typeBeyond.unnamed⟩
      rw [tokens_append, tokens_others, prepend_append, prepend_append]
      exact bind_eq_ok.mpr ⟨_, _, _, lift_eq_ok.mpr ⟨labelled, rfl⟩, bind_eq_ok.mpr ⟨_, _, _, used,
        bind_eq_ok.mpr ⟨_, _, _, lift_eq_ok.mpr ⟨closes, rfl⟩, rfl⟩⟩⟩
  | @memory name numbers label limits named limited =>
      have numbered := limits_reads.complete (rest.prepend [right]) limited closed
      have unnamed : ((rest.prepend [right]).prepend numbers).current.kind.identifier? = none := by
        rcases limited with @⟨token, min, number⟩ | @⟨token, _, min, _, number, -⟩ <;>
          rw [current_prepend_cons] <;> revert number <;> cases token.kind <;>
          simp [naturalValue?, TokenKind.identifier?]
      have labelled : identifier? (((rest.prepend [right]).prepend numbers).prepend name) =
          .ok (label, _) :=
        identifier?_eq_ok.mpr ⟨name, rfl, named, fun _ => unnamed⟩
      rw [tokens_others, prepend_append, prepend_append]
      exact bind_eq_ok.mpr ⟨_, _, _, lift_eq_ok.mpr ⟨labelled, rfl⟩, bind_eq_ok.mpr ⟨_, _, _,
        lift_eq_ok.mpr ⟨numbered, rfl⟩, bind_eq_ok.mpr ⟨_, _, _, lift_eq_ok.mpr ⟨closes, rfl⟩,
        rfl⟩⟩⟩
  | @table all balanced =>
      have skipped : closeGroup (rest.prepend (all ++ [right])) = .ok ((), rest) :=
        closeGroup_eq_ok.mpr ⟨all, right, rfl, balanced, closed⟩
      rw [tokens_others]
      exact bind_eq_ok.mpr ⟨_, _, _, lift_eq_ok.mpr ⟨skipped, rfl⟩, rfl⟩
  | @global all balanced =>
      have skipped : closeGroup (rest.prepend (all ++ [right])) = .ok ((), rest) :=
        closeGroup_eq_ok.mpr ⟨all, right, rfl, balanced, closed⟩
      rw [tokens_others]
      exact bind_eq_ok.mpr ⟨_, _, _, lift_eq_ok.mpr ⟨skipped, rfl⟩, rfl⟩

theorem importField_sound {declaration : Import}
    (run : importField declarations stream = .ok ((declaration, final), rest)) :
    ∃ readings, stream = rest.prepend (tokens readings) ∧
      FieldWritten declarations readings [.imported declaration] final := by
  simp only [importField, bind_eq_ok, lift_eq_ok, claim_eq_ok] at run
  obtain ⟨⟨⟩, _, _, ⟨opened, rfl⟩, source, _, _, ⟨sourced, rfl⟩, name, _, _, ⟨named, rfl⟩,
    ⟨⟩, _, _, ⟨opens, rfl⟩, kind, _, _, ⟨described, rfl⟩, _, _, _, ⟨rfl, rfl, rfl⟩, target, _, _,
    targeted, ⟨⟩, _, _, ⟨closed, rfl⟩, ended⟩ := run
  cases ended
  obtain ⟨left, head, rfl, isLeft, isHead⟩ := openGroup_eq_ok.mp opened
  obtain ⟨first, rfl, isSource⟩ := string_eq_ok.mp sourced
  obtain ⟨second, rfl, isName⟩ := string_eq_ok.mp named
  obtain ⟨opening, rfl, isOpening⟩ := leftParen_eq_ok.mp opens
  obtain ⟨word, keyword, rfl, isWord, isKind⟩ := externalKind_eq_ok.mp described
  obtain ⟨inner, closing, rfl, isTarget, isClosing⟩ := importTarget_sound targeted
  obtain ⟨right, rfl, isRight⟩ := rightParen_eq_ok.mp closed
  refine ⟨_, ?_, .imported isLeft isHead isSource isName isOpening isWord isKind isTarget
    isClosing isRight⟩
  simp [prepend, others, tokens]

theorem importField_complete {left head first second opening word closing right : Token}
    {source name : String} {keyword : Keyword} {kind : ExternalKind} {inner : List Reading}
    {target : ImportTarget} (opened : left.kind = .leftParen)
    (headed : head.kind = .keyword .importForm) (sourced : first.kind = .string source)
    (named : second.kind = .string name) (opens : opening.kind = .leftParen)
    (described : word.kind = .keyword keyword)
    (isKind : ExternalKind.ofKeyword? keyword = some kind)
    (targeted : ImportTargetWritten (declarations.claim kind.space)
      (declarations.claimed.get kind.space) kind inner target final)
    (closes : closing.kind = .rightParen) (closed : right.kind = .rightParen) :
    importField declarations ((rest.prepend [right]).prepend
        ([left, head, first, second, opening, word] ++ (tokens inner ++ [closing]))) =
      .ok ((⟨source, name, target⟩, final), rest) := by
  simp only [importField, bind_eq_ok, lift_eq_ok, claim_eq_ok]
  exact ⟨(), _, _, ⟨openGroup_eq_ok.mpr ⟨left, head, rfl, opened, headed⟩, rfl⟩,
    source, _, _, ⟨string_eq_ok.mpr ⟨first, rfl, sourced⟩, rfl⟩,
    name, _, _, ⟨string_eq_ok.mpr ⟨second, rfl, named⟩, rfl⟩,
    (), _, _, ⟨leftParen_eq_ok.mpr ⟨opening, rfl, opens⟩, rfl⟩,
    kind, _, _, ⟨externalKind_eq_ok.mpr ⟨word, keyword, rfl, described, isKind⟩, rfl⟩,
    _, _, _, ⟨rfl, rfl, rfl⟩,
    target, _, _, importTarget_complete targeted closes,
    (), _, _, ⟨rightParen_eq_ok.mpr ⟨right, rfl, closed⟩, rfl⟩, rfl⟩

end Imports

theorem typeField_sound {definition : TypeDefinition}
    (run : typeField declarations stream = .ok ((definition, final), rest))
    (shown : (stream.nth 1).kind.keyword? = some .typeForm) :
    ∃ readings, stream = rest.prepend (tokens readings) ∧
      FieldWritten declarations readings [.type definition] final := by
  simp only [typeField, bind_eq_ok] at run
  obtain ⟨_, _, _, gets, continued⟩ := run
  cases gets
  cases pending : declarations.pendingTypes with
  | nil =>
      simp only [pending, lift_eq_ok] at continued
      cases continued.1
  | cons next more =>
      simp only [pending, bind_eq_ok, lift_eq_ok] at continued
      obtain ⟨⟨⟩, _, _, sets, ⟨⟩, _, _, ⟨skipped, rfl⟩, ended⟩ := continued
      cases sets
      cases ended
      obtain ⟨group, rfl, isGroup⟩ := skipGroup_isGroup skipped
      rw [isGroup.nth_one] at shown
      exact ⟨others group, by simp, .type isGroup shown pending⟩

theorem skippedField_sound {word : Option Keyword}
    (run : skippedField word declarations stream = .ok (((), final), rest))
    (shown : (stream.nth 1).kind.keyword? = word)
    (other : word ∉ [some .funcForm, some .exportForm, some .importForm, some .typeForm]) :
    ∃ readings, stream = rest.prepend (tokens readings) ∧
      FieldWritten declarations readings [] final := by
  cases defines : word.bind IndexSpace.ofKeyword? with
  | none =>
      simp only [skippedField, defines, lift_eq_ok] at run
      obtain ⟨skipped, rfl⟩ := run
      obtain ⟨group, rfl, isGroup⟩ := skipGroup_isGroup skipped
      rw [isGroup.nth_one] at shown
      subst shown
      have written := @FieldWritten.skipped final _ isGroup other
      rw [defines] at written
      exact ⟨others group, by simp, written⟩
  | some space =>
      simp only [skippedField, defines, bind_eq_ok, lift_eq_ok, claim_eq_ok] at run
      obtain ⟨_, _, _, ⟨rfl, rfl, rfl⟩, skipped, rfl⟩ := run
      obtain ⟨group, rfl, isGroup⟩ := skipGroup_isGroup skipped
      rw [isGroup.nth_one] at shown
      subst shown
      have written := @FieldWritten.skipped declarations _ isGroup other
      rw [defines] at written
      exact ⟨others group, by simp, written⟩

/-- What is read as a field is written as one. -/
theorem field_sound {part : List Field}
    (run : field declarations stream = .ok ((part, final), rest)) :
    ∃ readings, stream = rest.prepend (tokens readings) ∧
      FieldWritten declarations readings part final := by
  obtain ⟨_, _, _, gets, continued⟩ := bind_eq_ok.mp run
  cases gets
  by_cases isFunction : (stream.nth 1).kind.keyword? = some .funcForm
  · simp only [isFunction] at continued
    obtain ⟨readings, label, shape, written⟩ := function_sound continued
    exact ⟨readings, shape, .function written⟩
  by_cases isExport : (stream.nth 1).kind.keyword? = some .exportForm
  · simp only [isExport] at continued
    obtain ⟨target, _, _, taken, ended⟩ := bind_eq_ok.mp continued
    cases ended
    exact exportField_sound taken
  by_cases isImport : (stream.nth 1).kind.keyword? = some .importForm
  · simp only [isImport] at continued
    obtain ⟨declaration, _, _, taken, ended⟩ := bind_eq_ok.mp continued
    cases ended
    exact importField_sound taken
  by_cases isType : (stream.nth 1).kind.keyword? = some .typeForm
  · simp only [isType] at continued
    obtain ⟨definition, _, _, taken, ended⟩ := bind_eq_ok.mp continued
    cases ended
    exact typeField_sound taken isType
  · simp only at continued
    obtain ⟨⟨⟩, _, _, taken, ended⟩ := bind_eq_ok.mp continued
    cases ended
    exact skippedField_sound taken rfl (by simp [isFunction, isExport, isImport, isType])

theorem skipGroup_of_isGroup {group : List Token} (isGroup : IsGroup group)
    (after : TokenStream) : skipGroup (after.prepend group) = .ok ((), after) := by
  obtain ⟨opened, within, closed⟩ := isGroup
  exact skipGroup_eq_ok.mpr ⟨_, _, _, rfl, opened, within, closed⟩

theorem skippedField_complete {group : List Token} (isGroup : IsGroup group) :
    skippedField (headWord? group) declarations (rest.prepend group) =
      .ok (((), match (headWord? group).bind IndexSpace.ofKeyword? with
        | some space => declarations.claim space
        | none => declarations), rest) := by
  have skips := skipGroup_of_isGroup isGroup rest
  cases defines : (headWord? group).bind IndexSpace.ofKeyword? with
  | none =>
      simp only [skippedField, defines]
      exact lift_eq_ok.mpr ⟨skips, rfl⟩
  | some space =>
      simp only [skippedField, defines]
      exact bind_eq_ok.mpr ⟨_, _, _, claim_eq_ok.mpr ⟨rfl, rfl, rfl⟩,
        lift_eq_ok.mpr ⟨skips, rfl⟩⟩

theorem typeField_complete {group : List Token} {definition : TypeDefinition}
    {pendingTypes : List TypeDefinition} (isGroup : IsGroup group)
    (pending : declarations.pendingTypes = definition :: pendingTypes) :
    typeField declarations (rest.prepend group) =
      .ok ((definition, { declarations with pendingTypes }), rest) := by
  have skips := skipGroup_of_isGroup isGroup rest
  refine bind_eq_ok.mpr ⟨_, _, _, rfl, ?_⟩
  simp only [pending]
  exact bind_eq_ok.mpr ⟨_, _, _, rfl, bind_eq_ok.mpr
    ⟨_, _, _, lift_eq_ok.mpr ⟨skips, rfl⟩, rfl⟩⟩

/-- A field is read as the word in its second place says. -/
theorem field_apply {word : Option Keyword} (shown : (stream.nth 1).kind.keyword? = word) :
    field declarations stream =
      (match word with
        | some .funcForm => function
        | some .exportForm => do return [.exported (← exportField)]
        | some .importForm => do return [.imported (← importField)]
        | some .typeForm => do return [.type (← typeField)]
        | word => do
            skippedField word
            return []) declarations stream := by
  subst shown
  rfl

/-- What is written as a field is read as one, whatever follows it. -/
theorem field_complete {readings : List Reading} {part : List Field}
    (written : FieldWritten declarations readings part final) (rest : TokenStream) :
    field declarations (rest.prepend (tokens readings)) = .ok ((part, final), rest) := by
  have shows {left head : Token} {all : List Token} {word : Keyword}
      (whole : tokens readings = left :: head :: all) (isHead : head.kind = .keyword word) :
      ((rest.prepend (tokens readings)).nth 1).kind.keyword? = some word := by
    rw [whole, nth_succ_prepend_cons, nth_zero_prepend_cons, isHead]
    rfl
  cases written with
  | function written =>
      have taken : function declarations (rest.prepend (tokens readings)) =
          .ok ((part, final), rest) :=
        function_complete written
      obtain ⟨-, isHead, -, -, -, -, -, -⟩ := written
      rw [field_apply (shows rfl isHead)]
      exact taken
  | exported opened isHead named opens described isKind refers closes closed =>
      have taken := @exportField_complete _ rest _ _ _ _ _ _ _ _ _ _ _ _ opened isHead named opens
        described isKind refers closes closed
      rw [field_apply (shows rfl isHead)]
      exact bind_eq_ok.mpr ⟨_, _, _, taken, rfl⟩
  | imported opened isHead sourced named opens described isKind targeted closes closed =>
      rw [field_apply (shows rfl isHead)]
      refine bind_eq_ok.mpr ⟨_, _, _, ?_, rfl⟩
      rw [← importField_complete opened isHead sourced named opens described isKind targeted closes
        closed]
      simp [prepend, others, tokens]
  | @type group definition pendingTypes isGroup isHead pending =>
      rw [tokens_others, field_apply ((isGroup.nth_one rest).trans isHead)]
      exact bind_eq_ok.mpr ⟨_, _, _, typeField_complete isGroup pending, rfl⟩
  | @skipped group isGroup other =>
      rw [tokens_others, field_apply (isGroup.nth_one rest)]
      have taken : skippedField (headWord? group) declarations (rest.prepend group) = _ :=
        skippedField_complete isGroup
      simp only [List.mem_cons, List.not_mem_nil, or_false, not_or] at other
      obtain ⟨noFunction, noExport, noImport, noType⟩ := other
      have passes : ∀ {α : Type} (functions exports imports types : α) (skips : Option Keyword → α),
          (match headWord? group with
            | some .funcForm => functions
            | some .exportForm => exports
            | some .importForm => imports
            | some .typeForm => types
            | word => skips word) = skips (headWord? group) := by
        intro α functions exports imports types skips
        split
        · exact absurd ‹_› noFunction
        · exact absurd ‹_› noExport
        · exact absurd ‹_› noImport
        · exact absurd ‹_› noType
        · rfl
      rw [passes]
      exact bind_eq_ok.mpr ⟨_, _, _, taken, rfl⟩

end Builder

end WatMachine
