import WatMachine.Proofs.Grammar.Phrases

/-!
# Plain instructions and the words around blocks

Operands end where nothing follows that could still belong to them: no name,
and no group of a type, of parameters or of results.  No instruction starts
with one of these, so that such a clear stream lies behind every operand.
-/

namespace WatMachine

open TokenStream

namespace TokenStream

/-- Whether nothing comes next that could belong to the operand or label in
front. -/
structure Clear (stream : TokenStream) : Prop where
  unnamed : stream.current.kind.identifier? = none
  untyped : stream.atGroup .typeForm = false
  unsigned : Reader.atSignatureGroup stream = false

variable {stream : TokenStream} {word : Keyword}

theorem atGroup_iff :
    stream.atGroup word = true ↔
      stream.current.kind = .leftParen ∧ (stream.nth 1).kind = .keyword word := by
  simp [atGroup, atLeftParen]

theorem atGroup_of_not_leftParen (other : stream.current.kind ≠ .leftParen) :
    stream.atGroup word = false := by
  simp [atGroup, atLeftParen, other]

theorem atGroup_prepend {left head : Token} {tokens : List Token}
    (opened : left.kind = .leftParen) (headed : head.kind = .keyword word) (other : Keyword) :
    (stream.prepend (left :: head :: tokens)).atGroup other = decide (word = other) := by
  rw [Bool.eq_iff_iff, atGroup_iff]
  simp [opened, headed]

theorem Clear.of_kind (unnamed : stream.current.kind.identifier? = none)
    (other : stream.current.kind ≠ .leftParen) : stream.Clear := by
  refine ⟨unnamed, atGroup_of_not_leftParen other, ?_⟩
  simp [Reader.atSignatureGroup, atGroup_of_not_leftParen other]

/-- A stream is clear if it opens a group other than those of signatures. -/
theorem Clear.of_group {left head : Token} {tokens : List Token} (opened : left.kind = .leftParen)
    (headed : head.kind = .keyword word)
    (other : word ≠ .typeForm ∧ word ≠ .paramForm ∧ word ≠ .resultForm) :
    (stream.prepend (left :: head :: tokens)).Clear := by
  refine ⟨by simp [opened, TokenKind.identifier?], ?_, ?_⟩
  · simp [atGroup_prepend opened headed, other]
  · simp [Reader.atSignatureGroup, atGroup_prepend opened headed, other]

theorem Clear.not_results (clear : stream.Clear) : stream.atGroup .resultForm = false := by
  have unsigned := clear.unsigned
  rw [Reader.atSignatureGroup, Bool.or_eq_false_iff] at unsigned
  exact unsigned.2

end TokenStream

section Names

/-- The variable that a name means is the first of that name. -/
theorem Frame.indexOf?_eq_some {frame : Frame} {text : String} {index : Nat} :
    frame.indexOf? text = some index ↔
      IsLeast {place | frame.names[place]? = some (some text)} index := by
  rw [← findIdx?_name_eq_some, names, List.findIdx?_map]
  rfl

theorem Scope.resolvesLocals (scope : Scope) :
    Resolves scope.resolveLocal? scope.frame.names :=
  ⟨fun _ => rfl, fun _ _ => Frame.indexOf?_eq_some⟩

theorem Scope.resolvesLabels (scope : Scope) : Resolves scope.resolveLabel? scope.labels :=
  ⟨fun _ => rfl, fun _ _ => findIdx?_name_eq_some⟩

end Names

namespace Reader

variable {α : Type}

theorem valueTypes_reads :
    Reads valueTypes (Many TypeWord) (fun after => after.atValueType = false) := by
  refine many_reads ?_ ?_ ?_
  · intro stream type after shown read
    obtain ⟨token, shape, isType⟩ := valueType_eq_ok.mp read
    exact ⟨[token], shape, token, rfl, isType⟩
  · rintro _ type after ⟨token, rfl, isType⟩
    exact valueType_eq_ok.mpr ⟨token, rfl, isType⟩
  · rintro _ type after ⟨token, rfl, isType⟩
    refine ⟨List.cons_ne_nil _ _, ?_⟩
    rw [atValueType, current_prepend_cons, isType]
    cases type <;> rfl

/-- A group around a language is read if its inside is read up to a closing
parenthesis. -/
theorem group_reads {inner : Reader α} {language : List Token → α → Prop}
    (reads : Reads inner language fun after => after.current.kind = .rightParen)
    (word : Keyword) :
    Reads (do openGroup word; let value ← inner; rightParen; return value)
      (Group word language) (fun _ => True) where
  sound read := by
    obtain ⟨⟨⟩, behind, opened, read⟩ := bind_eq_ok.mp read
    obtain ⟨value, middle, taken, read⟩ := bind_eq_ok.mp read
    obtain ⟨⟨⟩, last, closed, read⟩ := bind_eq_ok.mp read
    cases read
    obtain ⟨left, head, rfl, isLeft, isHead⟩ := openGroup_eq_ok.mp opened
    obtain ⟨tokens, rfl, within⟩ := reads.sound taken
    obtain ⟨right, rfl, isRight⟩ := rightParen_eq_ok.mp closed
    refine ⟨left :: head :: tokens ++ [right], ?_, .mk isLeft isHead within isRight⟩
    simp [prepend]
  complete after grouped _ := by
    obtain @⟨left, head, right, tokens, _, isLeft, isHead, within, isRight⟩ := grouped
    have opened := openGroup_eq_ok.mpr
      ⟨left, head, (rfl : _ = (after.prepend (tokens ++ [right])).prepend _), isLeft, isHead⟩
    have taken := reads.complete (after.prepend [right]) within isRight
    have closed := rightParen_eq_ok.mpr ⟨right, (rfl : _ = after.prepend _), isRight⟩
    refine bind_eq_ok.mpr ⟨(), _, opened, bind_eq_ok.mpr ⟨_, _, ?_, bind_eq_ok.mpr
      ⟨(), _, closed, rfl⟩⟩⟩
    rw [prepend_append]
    exact taken

theorem resultGroup_reads :
    Reads resultGroup (Group .resultForm (Many TypeWord)) (fun _ => True) := by
  refine group_reads ⟨valueTypes_reads.sound, fun after words closed => ?_⟩ _
  refine valueTypes_reads.complete after words ?_
  rw [atValueType, closed]
  rfl

theorem group_shows {word : Keyword} {language : List Token → α → Prop} {tokens : List Token}
    {value : α} (grouped : Group word language tokens value) (after : TokenStream) :
    tokens ≠ [] ∧ (after.prepend tokens).atGroup word = true := by
  obtain @⟨left, head, right, inner, value, isLeft, isHead, within, isRight⟩ := grouped
  refine ⟨List.cons_ne_nil _ _, ?_⟩
  rw [List.cons_append, List.cons_append, atGroup_prepend isLeft isHead]
  simp

theorem many_groups_reads {word : Keyword} {item : Reader α} {language : List Token → α → Prop}
    (reads : Reads item (Group word language) fun _ => True) :
    Reads (many (atGroup word) item) (Many (Group word language))
      (fun after => after.atGroup word = false) :=
  many_reads (fun _ read => reads.sound read)
    (fun after grouped => reads.complete after grouped trivial)
    (fun after grouped => group_shows grouped after)

theorem results_reads :
    Reads results (fun tokens types => ∃ groups, ResultGroups tokens groups ∧
      groups.flatten = types) (fun after => after.atGroup .resultForm = false) where
  sound read := by
    obtain ⟨groups, middle, taken, read⟩ := bind_eq_ok.mp read
    cases read
    obtain ⟨tokens, shape, within⟩ := (many_groups_reads resultGroup_reads).sound taken
    exact ⟨tokens, shape, groups, within, rfl⟩
  complete after := by
    rintro ⟨groups, within, rfl⟩ ended
    exact bind_eq_ok.mpr ⟨groups, after,
      (many_groups_reads resultGroup_reads).complete after within ended, rfl⟩

theorem definitionIndex_eq_ok {environment : Environment} {expected : Expectation}
    {space : IndexSpace} {stream after : TokenStream} {index : Nat} {span : Source.Span} :
    definitionIndex environment expected space stream = .ok ((index, span), after) ↔
      ∃ token, stream = after.prepend [token] ∧
        RefersTo (environment.names.get space) token index ∧ token.span = span :=
  resolved_eq_ok (environment.resolves space)

section Operands

variable (scope : Scope)

theorem typeOperand_reads :
    Reads (typeOperand scope) (fun tokens operand => ∃ index, operand = .index index ∧
      Group .typeForm (Reference (scope.environment.names.get .type)) tokens index)
      (fun _ => True) where
  sound read := by
    obtain ⟨⟨⟩, behind, opened, read⟩ := bind_eq_ok.mp read
    obtain ⟨⟨index, span⟩, middle, taken, read⟩ := bind_eq_ok.mp read
    obtain ⟨⟨⟩, last, closed, read⟩ := bind_eq_ok.mp read
    cases read
    obtain ⟨left, head, rfl, isLeft, isHead⟩ := openGroup_eq_ok.mp opened
    obtain ⟨token, rfl, refers, rfl⟩ := definitionIndex_eq_ok.mp taken
    obtain ⟨right, rfl, isRight⟩ := rightParen_eq_ok.mp closed
    have grouped : Group .typeForm (Reference (scope.environment.names.get .type))
        (left :: head :: [token] ++ [right]) index :=
      .mk isLeft isHead ⟨token, rfl, refers⟩ isRight
    exact ⟨_, rfl, index, rfl, grouped⟩
  complete after := by
    rintro ⟨index, rfl, @⟨left, head, right, _, _, isLeft, isHead, ⟨token, rfl, refers⟩, isRight⟩⟩ -
    have opened := openGroup_eq_ok.mpr
      ⟨left, head, (rfl : _ = (after.prepend [token, right]).prepend _), isLeft, isHead⟩
    have taken : definitionIndex scope.environment .typeIndex .type
        (after.prepend [token, right]) = .ok ((index, token.span), after.prepend [right]) :=
      definitionIndex_eq_ok.mpr ⟨token, rfl, refers, rfl⟩
    have closed := rightParen_eq_ok.mpr ⟨right, (rfl : _ = after.prepend _), isRight⟩
    exact bind_eq_ok.mpr ⟨(), _, opened, bind_eq_ok.mpr ⟨_, _, taken, bind_eq_ok.mpr
      ⟨(), _, closed, rfl⟩⟩⟩

theorem group_of_skipGroup {word : Keyword} {stream after : TokenStream}
    (shown : stream.atGroup word = true) (read : skipGroup stream = .ok ((), after)) :
    ∃ tokens, stream = after.prepend tokens ∧
      Group word (fun inner (_ : Unit) => Balanced inner) tokens () := by
  obtain ⟨left, inner, right, rfl, isLeft, balanced, isRight⟩ := skipGroup_eq_ok.mp read
  refine ⟨left :: inner ++ [right], rfl, ?_⟩
  obtain ⟨-, headed⟩ := atGroup_iff.mp shown
  cases inner with
  | nil =>
      have closed : right.kind = .keyword word := headed
      rw [closed] at isRight
      cases isRight
  | cons head inner =>
      have isHead : head.kind = .keyword word := headed
      exact .mk isLeft isHead (balanced.tail (by simp [isHead])) isRight

theorem skipGroup_of_group {word : Keyword} {tokens : List Token}
    (grouped : Group word (fun inner (_ : Unit) => Balanced inner) tokens ())
    (after : TokenStream) : skipGroup (after.prepend tokens) = .ok ((), after) := by
  obtain @⟨left, head, right, inner, _, isLeft, isHead, balanced, isRight⟩ := grouped
  refine skipGroup_eq_ok.mpr ⟨left, head :: inner, right, rfl, isLeft, ?_, isRight⟩
  exact .other (by simp [isHead]) (by simp [isHead]) (by simp [isHead]) balanced

theorem skippedGroups_reads :
    Reads (many atSignatureGroup skipGroup) (Many SkippedGroup)
      (fun after => atSignatureGroup after = false) := by
  refine many_reads ?_ ?_ ?_
  · rintro stream ⟨⟩ after shown read
    rcases (Bool.or_eq_true _ _).mp shown with params | results
    · obtain ⟨tokens, shape, grouped⟩ := group_of_skipGroup params read
      exact ⟨tokens, shape, .inl grouped⟩
    · obtain ⟨tokens, shape, grouped⟩ := group_of_skipGroup results read
      exact ⟨tokens, shape, .inr grouped⟩
  · rintro tokens ⟨⟩ after (grouped | grouped)
    · exact skipGroup_of_group grouped after
    · exact skipGroup_of_group grouped after
  · rintro tokens value after (grouped | grouped)
    · obtain ⟨nonempty, shown⟩ := group_shows grouped after
      exact ⟨nonempty, by rw [atSignatureGroup, shown]; rfl⟩
    · obtain ⟨nonempty, shown⟩ := group_shows grouped after
      exact ⟨nonempty, by rw [atSignatureGroup, shown, Bool.or_true]⟩

/-- Groups that are skipped never start with a type. -/
theorem atGroup_type_of_skippedGroups {tokens : List Token} {skipped : List Unit}
    (groups : Many SkippedGroup tokens skipped) {after : TokenStream}
    (untyped : after.atGroup .typeForm = false) :
    (after.prepend tokens).atGroup .typeForm = false := by
  cases groups with
  | nil => exact untyped
  | cons item others =>
      rcases item with ⟨isLeft, isHead, -, -⟩ | ⟨isLeft, isHead, -, -⟩
      · exact atGroup_prepend isLeft isHead _
      · exact atGroup_prepend isLeft isHead _

theorem indirectType_apply (stream : TokenStream) :
    indirectType scope stream =
      ((if stream.atGroup .typeForm then some <$> typeOperand scope else pure none) >>=
        fun operand => many atSignatureGroup skipGroup >>= fun _ => pure operand) stream := by
  rw [indirectType, bind_apply, get_apply]
  simp only
  split <;> rfl

theorem indirectType_reads :
    Reads (indirectType scope) (fun tokens operand => ∃ type groups skipped,
      tokens = type ++ groups ∧ CalledType scope type operand ∧ Many SkippedGroup groups skipped)
      Clear where
  sound {stream operand after} read := by
    rw [indirectType_apply] at read
    obtain ⟨operand, behind, called, read⟩ := bind_eq_ok.mp read
    obtain ⟨skipped, last, skips, read⟩ := bind_eq_ok.mp read
    cases read
    obtain ⟨groups, rfl, others⟩ := skippedGroups_reads.sound skips
    split at called
    · rw [← bind_pure_comp] at called
      obtain ⟨operand, middle, typed, called⟩ := bind_eq_ok.mp called
      cases called
      obtain ⟨type, rfl, index, rfl, grouped⟩ := (typeOperand_reads scope).sound typed
      exact ⟨type ++ groups, (prepend_append _ _ _).symm, type, groups, skipped, rfl,
        .written grouped, others⟩
    · cases called
      exact ⟨groups, rfl, [], groups, skipped, rfl, .omitted, others⟩
  complete after := by
    rintro ⟨type, groups, skipped, rfl, called, others⟩ clear
    rw [indirectType_apply, prepend_append]
    have skips := skippedGroups_reads.complete after others clear.unsigned
    cases called with
    | omitted =>
        rw [prepend_nil, atGroup_type_of_skippedGroups others clear.untyped]
        exact bind_eq_ok.mpr ⟨none, _, rfl, bind_eq_ok.mpr ⟨skipped, after, skips, rfl⟩⟩
    | @written _ index grouped =>
        have typed := (typeOperand_reads scope).complete (after.prepend groups)
          ⟨index, rfl, grouped⟩ trivial
        rw [(group_shows grouped _).2, if_pos rfl]
        refine bind_eq_ok.mpr ⟨some (.index index), after.prepend groups, ?_,
          bind_eq_ok.mpr ⟨skipped, after, skips, rfl⟩⟩
        rw [map_apply, typed]

theorem word32_eq_ok {stream after : TokenStream} {value : Int} :
    word32 stream = .ok (value, after) ↔
      ∃ token literal, stream = after.prepend [token] ∧ token.kind = .integer literal ∧
        (-0x80000000 ≤ literal ∧ literal < 0x100000000) ∧ (Int32.ofInt literal).toInt = value := by
  rw [word32, bind_eq_ok]
  constructor
  · rintro ⟨⟨literal, span⟩, middle, taken, read⟩
    obtain ⟨token, rfl, kind, rfl⟩ := integer_eq_ok.mp taken
    by_cases fits : -0x80000000 ≤ literal ∧ literal < 0x100000000
    · simp only [if_pos fits] at read
      cases read
      exact ⟨token, literal, rfl, kind, fits, rfl⟩
    · simp [fits] at read
  · rintro ⟨token, literal, rfl, kind, fits, rfl⟩
    refine ⟨_, after, integer_eq_ok.mpr ⟨token, rfl, kind, rfl⟩, ?_⟩
    simp only [if_pos fits]
    rfl

theorem indexOperand_reads {expected : Expectation} {referent : Referent}
    {resolve : Identifier → Option Nat} {names : List (Option String)}
    (resolves : Resolves resolve names) :
    Reads
      (do let (index, _) ← resolved expected referent resolve; return some (Operand.index index))
      (fun tokens operand => ∃ index, operand = some (.index index) ∧
        Reference names tokens index) (fun _ => True) where
  sound read := by
    obtain ⟨⟨index, span⟩, middle, taken, read⟩ := bind_eq_ok.mp read
    cases read
    obtain ⟨token, rfl, refers, -⟩ := (resolved_eq_ok resolves).mp taken
    exact ⟨[token], rfl, index, rfl, token, rfl, refers⟩
  complete after := by
    rintro ⟨index, rfl, token, rfl, refers⟩ -
    exact bind_eq_ok.mpr ⟨_, after, (resolved_eq_ok resolves).mpr ⟨token, rfl, refers, rfl⟩, rfl⟩

theorem literalOperand_reads :
    Reads (do let (value, _) ← integer; return some (Operand.literal value))
      (fun tokens operand => ∃ token value, tokens = [token] ∧ token.kind = .integer value ∧
        operand = some (.literal value)) (fun _ => True) where
  sound read := by
    obtain ⟨⟨value, span⟩, middle, taken, read⟩ := bind_eq_ok.mp read
    cases read
    obtain ⟨token, rfl, kind, -⟩ := integer_eq_ok.mp taken
    exact ⟨[token], rfl, token, value, rfl, kind, rfl⟩
  complete after := by
    rintro ⟨token, value, rfl, kind, rfl⟩ -
    exact bind_eq_ok.mpr ⟨_, after, integer_eq_ok.mpr ⟨token, rfl, kind, rfl⟩, rfl⟩

theorem word32Operand_reads :
    Reads (do return some (Operand.literal (← word32)))
      (fun tokens operand => ∃ token value, tokens = [token] ∧ token.kind = .integer value ∧
        (-0x80000000 ≤ value ∧ value < 0x100000000) ∧
        operand = some (.literal (Int32.ofInt value).toInt)) (fun _ => True) where
  sound read := by
    obtain ⟨_, middle, taken, read⟩ := bind_eq_ok.mp read
    cases read
    obtain ⟨token, value, rfl, kind, fits, rfl⟩ := word32_eq_ok.mp taken
    exact ⟨[token], rfl, token, value, rfl, kind, fits, rfl⟩
  complete after := by
    rintro ⟨token, value, rfl, kind, fits, rfl⟩ -
    exact bind_eq_ok.mpr ⟨_, after, word32_eq_ok.mpr ⟨token, value, rfl, kind, fits, rfl⟩, rfl⟩

variable {opcode : Keyword}

theorem operand_sound (code : opcode.isInstruction = true)
    (unstructured : BlockKind.ofKeyword? opcode = none) {stream after : TokenStream}
    {value : Option Operand} (read : operand scope opcode stream = .ok (value, after)) :
    ∃ tokens, stream = after.prepend tokens ∧ Immediate scope opcode tokens value := by
  have ofIndex {expected referent resolve names} (resolves : Resolves resolve names)
      (read : (do
        let (index, _) ← resolved expected referent resolve
        return some (Operand.index index)) stream = .ok (value, after))
      (class' : ∀ {tokens index}, Reference names tokens index →
        Immediate scope opcode tokens (some (.index index))) :
      ∃ tokens, stream = after.prepend tokens ∧ Immediate scope opcode tokens value := by
    obtain ⟨tokens, shape, index, rfl, reference⟩ := (indexOperand_reads resolves).sound read
    exact ⟨tokens, shape, class' reference⟩
  unfold operand at read
  split at read
  · exact ofIndex (scope.environment.resolves .function) read .call
  · exact ofIndex scope.resolvesLocals read (.localVariable (by decide))
  · exact ofIndex scope.resolvesLocals read (.localVariable (by decide))
  · exact ofIndex scope.resolvesLocals read (.localVariable (by decide))
  · exact ofIndex (scope.environment.resolves .global) read (.global (by decide))
  · exact ofIndex (scope.environment.resolves .global) read (.global (by decide))
  · exact ofIndex scope.resolvesLabels read (.label (by decide))
  · exact ofIndex scope.resolvesLabels read (.label (by decide))
  · obtain ⟨tokens, shape, type, groups, skipped, rfl, called, others⟩ :=
      (indirectType_reads scope).sound read
    exact ⟨_, shape, .indirect called others⟩
  · obtain ⟨tokens, shape, token, literal, rfl, kind, ⟨least, most⟩, rfl⟩ :=
      word32Operand_reads.sound read
    exact ⟨_, shape, .word kind least most⟩
  · obtain ⟨tokens, shape, token, literal, rfl, kind, rfl⟩ := literalOperand_reads.sound read
    exact ⟨_, shape, .literal (by decide) kind⟩
  · obtain ⟨tokens, shape, token, literal, rfl, kind, rfl⟩ := literalOperand_reads.sound read
    exact ⟨_, shape, .literal (by decide) kind⟩
  · obtain ⟨tokens, shape, token, literal, rfl, kind, rfl⟩ := literalOperand_reads.sound read
    exact ⟨_, shape, .literal (by decide) kind⟩
  · cases read
    refine ⟨[], rfl, .nothing ?_⟩
    cases opcode <;> first | decide | simp_all [Keyword.isInstruction, BlockKind.ofKeyword?]

theorem operand_complete {tokens : List Token} {value : Option Operand}
    (immediate : Immediate scope opcode tokens value) {after : TokenStream} (clear : after.Clear) :
    operand scope opcode (after.prepend tokens) = .ok (value, after) := by
  have ofIndex {expected referent resolve names index} (resolves : Resolves resolve names)
      (reference : Reference names tokens index) :
      (do
        let (index, _) ← resolved expected referent resolve
        return some (Operand.index index)) (after.prepend tokens) =
        .ok (some (.index index), after) :=
    (indexOperand_reads resolves).complete after ⟨index, rfl, reference⟩ trivial
  cases immediate with
  | call reference => exact ofIndex (scope.environment.resolves .function) reference
  | localVariable listed reference =>
      simp only [List.mem_cons, List.not_mem_nil, or_false] at listed
      rcases listed with rfl | rfl | rfl <;> exact ofIndex scope.resolvesLocals reference
  | global listed reference =>
      simp only [List.mem_cons, List.not_mem_nil, or_false] at listed
      rcases listed with rfl | rfl <;>
        exact ofIndex (scope.environment.resolves .global) reference
  | label listed reference =>
      simp only [List.mem_cons, List.not_mem_nil, or_false] at listed
      rcases listed with rfl | rfl <;> exact ofIndex scope.resolvesLabels reference
  | indirect called others =>
      exact (indirectType_reads scope).complete after ⟨_, _, _, rfl, called, others⟩ clear
  | word kind least most =>
      exact word32Operand_reads.complete after ⟨_, _, rfl, kind, ⟨least, most⟩, rfl⟩ trivial
  | literal listed kind =>
      have reads := literalOperand_reads.complete after ⟨_, _, rfl, kind, rfl⟩ trivial
      simp only [List.mem_cons, List.not_mem_nil, or_false] at listed
      rcases listed with rfl | rfl | rfl <;> exact reads
  | nothing listed =>
      simp only [List.mem_cons, List.not_mem_nil, or_false] at listed
      rcases listed with rfl | rfl | rfl | rfl | rfl | rfl | rfl | rfl | rfl | rfl | rfl | rfl <;>
        rfl

/-- The keyword of a plain instruction is an instruction and starts no
block. -/
theorem isInstruction_of_immediate {tokens : List Token} {value : Option Operand}
    (immediate : Immediate scope opcode tokens value) :
    opcode.isInstruction = true ∧ BlockKind.ofKeyword? opcode = none := by
  have ofListed {words : List Keyword}
      (all : ∀ word ∈ words, word.isInstruction = true ∧ BlockKind.ofKeyword? word = none)
      (listed : opcode ∈ words) :
      opcode.isInstruction = true ∧ BlockKind.ofKeyword? opcode = none :=
    all opcode listed
  cases immediate with
  | call | indirect | word => exact ⟨rfl, rfl⟩
  | localVariable listed => exact ofListed (by decide) listed
  | global listed => exact ofListed (by decide) listed
  | label listed => exact ofListed (by decide) listed
  | literal listed => exact ofListed (by decide) listed
  | nothing listed => exact ofListed (by decide) listed

/-- A plain instruction is read with its operand. -/
theorem plain_reads : Reads (plain scope) (Plain scope) Clear where
  sound {stream code after} read := by
    obtain ⟨_, _, shown, read⟩ := bind_eq_ok.mp read
    cases shown
    cases kind : stream.current.kind with
    | keyword opcode =>
        rw [kind] at read
        by_cases isPlain : (opcode.isInstruction && (BlockKind.ofKeyword? opcode).isNone) = true
        · simp only [if_pos isPlain] at read
          obtain ⟨_, behind, moved, read⟩ := bind_eq_ok.mp read
          cases moved
          obtain ⟨value, last, taken, read⟩ := bind_eq_ok.mp read
          cases read
          simp only [Bool.and_eq_true, Option.isNone_iff_eq_none] at isPlain
          obtain ended | ⟨token, behind, rfl, inside⟩ := stream.isEnd_or_exists_prepend
          · simp [Token.isEnd, kind] at ended
          · rw [advance_prepend_of_not_end behind inside] at taken
            obtain ⟨tokens, rfl, immediate⟩ := operand_sound scope isPlain.1 isPlain.2 taken
            exact ⟨token :: tokens, rfl, .mk kind immediate⟩
        · simp [isPlain] at read
    | _ => simp [kind] at read
  complete after := by
    rintro @⟨word, opcode, tokens, value, kind, immediate⟩ clear
    obtain ⟨code, unstructured⟩ := isInstruction_of_immediate scope immediate
    have moved : (after.prepend (word :: tokens)).advance = after.prepend tokens :=
      advance_prepend_of_not_end (after.prepend tokens) (by simp [Token.isEnd, kind])
    have taken := operand_complete scope immediate clear
    simp [plain, kind, code, unstructured, moved, taken]

end Operands

/-- Behind an `end`, the label of its block is read if it is repeated. -/
theorem closingLabel_sound {label : Option String} {stream after : TokenStream}
    (read : closingLabel label stream = .ok ((), after)) {word : Token}
    (ended : word.kind = .keyword .blockEnd) :
    ∃ tokens, stream = after.prepend tokens ∧ Closing label (word :: tokens) := by
  obtain ⟨_, _, shown, read⟩ := bind_eq_ok.mp read
  cases shown
  obtain ⟨name, middle, taken, read⟩ := bind_eq_ok.mp read
  obtain ⟨tokens, rfl, named, -⟩ := identifier?_eq_ok.mp taken
  cases named with
  | anonymous =>
      cases read
      exact ⟨[], rfl, .short ended⟩
  | @named token text kind =>
      by_cases same : label = some text
      · simp only [if_pos same] at read
        cases read
        exact ⟨[token], rfl, .repeated ended kind same⟩
      · simp [same] at read

theorem closingLabel_complete {label : Option String} {word : Token} {tokens : List Token}
    (closing : Closing label (word :: tokens)) {after : TokenStream}
    (unnamed : after.current.kind.identifier? = none) :
    closingLabel label (after.prepend tokens) = .ok ((), after) := by
  cases closing with
  | short ended =>
      have taken : identifier? after = .ok (none, after) :=
        identifier?_eq_ok.mpr ⟨[], rfl, .anonymous, fun _ => unnamed⟩
      simp [closingLabel, taken]
  | @repeated _ name text ended named same =>
      have taken : identifier? (after.prepend [name]) = .ok (some text, after) :=
        identifier?_eq_ok.mpr ⟨[name], rfl, .named named, nofun⟩
      simp [closingLabel, taken, same]

end Reader

end WatMachine
