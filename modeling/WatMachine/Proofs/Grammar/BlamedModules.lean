import WatMachine.Proofs.Grammar.Blame
import WatMachine.Proofs.Grammar.RelocatedModules
import WatMachine.Proofs.Grammar.TypeTable
import WatMachine.Proofs.Token.Places

/-!
# Modules are rejected at a token

The readers of fields blame tokens as the readers of bodies do.  Two of them
look at what was declared before, and these complain about nothing else: a
type that a name refers to has a signature, so that only a number can be
undefined behind it, and the first pass has met every type definition that the
second pass meets, since both see the same groups.
-/

namespace WatMachine

open TokenStream Reader Declarations

variable {α β : Type} {all : List Token} {stream rest : TokenStream}
  {declarations final : Declarations}

namespace Builder

/-- Whether the reader that a builder is among some declarations answers. -/
def Answers (all : List Token) (action : Builder α) (declarations : Declarations)
    (stream : TokenStream) : Prop :=
  Reader.Answers all (action declarations) stream

namespace Answers

theorem congr {action other : Builder α}
    (same : action declarations stream = other declarations stream)
    (answers : Answers all other declarations stream) : Answers all action declarations stream :=
  Reader.Answers.congr same answers

theorem pure (value : α) : Answers all (pure value) declarations stream :=
  Reader.Answers.pure _

theorem lift {reader : Reader α} (answers : Reader.Answers all reader stream) :
    Answers all (liftM reader) declarations stream := by
  have apply : (liftM reader : Builder α) declarations =
      reader >>= fun value => Pure.pure (value, declarations) :=
    rfl
  rw [Answers, apply]
  exact answers.bind fun _ _ _ => .pure _

theorem bind {first : Builder α} {next : α → Builder β}
    (begins : Answers all first declarations stream)
    (goesOn : ∀ value middle after, first declarations stream = .ok ((value, middle), after) →
      Answers all (next value) middle after) :
    Answers all (first >>= next) declarations stream :=
  Reader.Answers.bind begins fun result after read => goesOn result.1 result.2 after read

/-- Behind a reader the declarations are what they were. -/
theorem andThen {reader : Reader α} {next : α → Builder β}
    (begins : Reader.Answers all reader stream)
    (goesOn : ∀ value after, reader stream = .ok (value, after) →
      Answers all (next value) declarations after) :
    Answers all ((liftM reader : Builder α) >>= next) declarations stream := by
  refine (lift begins).bind fun value middle after read => ?_
  obtain ⟨taken, rfl⟩ := lift_eq_ok.mp read
  exact goesOn value after taken

theorem get {next : Declarations → Builder β}
    (answers : Answers all (next declarations) declarations stream) :
    Answers all (get >>= next) declarations stream :=
  answers

theorem set {declared : Declarations} {next : PUnit → Builder β}
    (answers : Answers all (next ⟨⟩) declared stream) :
    Answers all (set declared >>= next) declarations stream :=
  answers

theorem modify {change : Declarations → Declarations} {next : PUnit → Builder β}
    (answers : Answers all (next ⟨⟩) (change declarations) stream) :
    Answers all (modify change >>= next) declarations stream :=
  answers

theorem getStream {next : TokenStream → Builder β}
    (answers : Answers all (next stream) declarations stream) :
    Answers all (getThe TokenStream >>= next) declarations stream :=
  answers

theorem current {next : Token → Builder β}
    (answers : Answers all (next stream.current) declarations stream) :
    Answers all ((liftM Reader.current : Builder Token) >>= next) declarations stream :=
  answers

theorem claim {space : IndexSpace} {next : Nat → Builder β}
    (answers : Answers all (next (declarations.claimed.get space)) (declarations.claim space)
      stream) :
    Answers all (claim space >>= next) declarations stream :=
  answers

end Answers

/-- A type without a signature is referred to by its number. -/
theorem kind_of_refers {token : Token} {index : Nat} (signed : declarations.Signed)
    (refers : RefersTo (declarations.environment.names.get .type) token index)
    (unsigned : declarations.signatures[index]? = none) : token.kind = .integer index := by
  cases refers with
  | number kind positive _ => rw [kind, Int.toNat_of_nonneg positive]
  | name kind first =>
      have known : index < declarations.environment.size .type :=
        (List.getElem?_eq_some_iff.mp first.1).1
      rw [signed] at known
      exact absurd known (Nat.not_lt.mpr (List.getElem?_eq_none_iff.mp unsigned))

theorem declaredType_answers (signed : declarations.Signed) :
    Answers all declaredType declarations stream := by
  refine .get (.andThen openGroup_answers fun _ after _ => ?_)
  refine Reader.Answers.of_within fun within => ?_
  refine Answers.andThen (definitionIndex_answers (by nofun)) ?_
  rintro ⟨index, span⟩ behind taken
  obtain ⟨token, rfl, refers, rfl⟩ := definitionIndex_eq_ok.mp taken
  dsimp only
  cases found : declarations.signatures[index]? with
  | some signature => exact .andThen rightParen_answers fun _ _ _ => .pure _
  | none =>
      have kind := kind_of_refers signed refers found
      exact .lift (.fail (within List.mem_cons_self) ⟨rfl, kind⟩ nofun)

theorem typeUse_answers (signed : declarations.Signed) :
    Answers all typeUse declarations stream := by
  refine .congr typeUse_apply ?_
  have ends (declared : Option (Nat × Signature)) (declarations : Declarations)
      (stream : TokenStream) : Answers all ((liftM (bindings .paramForm) : Builder _) >>=
        fun params => (liftM results : Builder _) >>= fun results =>
          typeUseWith declared params results) declarations stream := by
    refine .andThen bindings_answers fun params _ _ => .andThen results_answers fun types _ _ => ?_
    cases declared <;> exact .pure _
  split
  · refine .bind ?_ fun declared _ _ _ => ends declared _ _
    rw [← bind_pure_comp]
    exact (declaredType_answers signed).bind fun _ _ _ _ => .pure _
  · exact (Answers.pure none).bind fun declared _ _ _ => ends declared _ _

theorem inlineExport_answers : Reader.Answers all inlineExport stream :=
  openGroup_answers.bind fun _ _ _ => string_answers.bind fun _ _ _ =>
    rightParen_answers.bind fun _ _ _ => .pure _

theorem inlineImport?_answers : Reader.Answers all inlineImport? stream := by
  have imports : Reader.Answers all inlineImport stream :=
    openGroup_answers.bind fun _ _ _ => string_answers.bind fun _ _ _ =>
      string_answers.bind fun _ _ _ => rightParen_answers.bind fun _ _ _ => .pure _
  refine .get ?_
  split
  · exact imports.map
  · exact .pure _

theorem functionField_answers {index typeIndex : Nat} {frame : Frame}
    {source : Option (String × String)} :
    Answers all (functionField index typeIndex frame source) declarations stream := by
  cases source with
  | some names => exact .andThen rightParen_answers fun _ _ _ => .pure _
  | none =>
      exact .andThen bindings_answers fun locals _ _ => .get (.andThen body_answers fun _ _ _ =>
        .andThen rightParen_answers fun _ _ _ => .pure _)

theorem function_answers (signed : declarations.Signed) :
    Answers all function declarations stream := by
  have exporting (stream : TokenStream) :
      Reader.Answers all (many (TokenStream.atGroup .exportForm) inlineExport) stream :=
    many_answers (fun _ => rfl) (fun _ => inlineExport_answers) (group_shortens inlineExport_reads)
  rw [function_eq]
  refine .andThen openGroup_answers fun _ _ _ => .claim (.andThen identifier?_answers
    fun _ _ _ => .andThen (exporting _) fun names _ _ => .andThen inlineImport?_answers
    fun source _ _ => ?_)
  exact (typeUse_answers (signed.claim _)).bind fun used _ _ _ =>
    functionField_answers.bind fun _ _ _ _ => .pure _

theorem externalKind_answers {expected : Expectation} (declared : expected ≠ .declaredType) :
    Reader.Answers all (externalKind expected) stream :=
  (accept_answers declared).bind fun _ _ _ => .pure _

theorem exportField_answers : Answers all exportField declarations stream :=
  .andThen openGroup_answers fun _ _ _ => .andThen string_answers fun _ _ _ =>
    .andThen leftParen_answers fun _ _ _ => .andThen (externalKind_answers (by nofun))
    fun _ _ _ => .get (.andThen (definitionIndex_answers (by nofun)) fun _ _ _ =>
    .andThen rightParen_answers fun _ _ _ => .andThen rightParen_answers fun _ _ _ => .pure _)

theorem limits_answers : Reader.Answers all limits stream := by
  refine (natural_answers (by nofun)).bind fun min after _ => .current ?_
  split
  · exact (natural_answers (by nofun)).bind fun _ _ _ => .pure _
  · exact .pure _

theorem importTarget_answers {index : Nat} {kind : ExternalKind} (signed : declarations.Signed) :
    Answers all (importTarget index kind) declarations stream := by
  cases kind with
  | function =>
      exact .andThen identifier?_answers fun _ _ _ => (typeUse_answers signed).bind
        fun _ _ _ _ => .andThen rightParen_answers fun _ _ _ => .pure _
  | memory =>
      exact .andThen identifier?_answers fun _ _ _ => .andThen limits_answers fun _ _ _ =>
        .andThen rightParen_answers fun _ _ _ => .pure _
  | table | global => exact .andThen closeGroup_answers fun _ _ _ => .pure _

theorem importField_answers (signed : declarations.Signed) :
    Answers all importField declarations stream := by
  refine .andThen openGroup_answers fun _ _ _ => .andThen string_answers fun _ _ _ =>
    .andThen string_answers fun _ _ _ => .andThen leftParen_answers fun _ _ _ =>
    .andThen (externalKind_answers (by nofun)) fun kind _ _ => .claim ?_
  exact (importTarget_answers (signed.claim _)).bind fun _ _ _ _ =>
    .andThen rightParen_answers fun _ _ _ => .pure _

/-- A type definition is skipped where the first pass has met one. -/
theorem typeField_answers (pending : declarations.pendingTypes ≠ []) :
    Answers all typeField declarations stream := by
  refine .get ?_
  cases found : declarations.pendingTypes with
  | nil => exact absurd found pending
  | cons definition pendingTypes =>
      exact .set (.andThen skipGroup_answers fun _ _ _ => .pure _)

theorem skippedField_answers {word : Option Keyword} :
    Answers all (skippedField word) declarations stream := by
  unfold skippedField
  split
  · exact .claim (.lift skipGroup_answers)
  · exact .lift skipGroup_answers

theorem field_answers (signed : declarations.Signed)
    (pending : (stream.nth 1).kind.keyword? = some .typeForm → declarations.pendingTypes ≠ []) :
    Answers all field declarations stream := by
  refine .getStream ?_
  split
  · exact function_answers signed
  · exact exportField_answers.bind fun _ _ _ _ => .pure _
  · exact (importField_answers signed).bind fun _ _ _ _ => .pure _
  · rename_i isType
    exact (typeField_answers (pending isType)).bind fun _ _ _ _ => .pure _
  · exact skippedField_answers.bind fun _ _ _ _ => .pure _

section FirstPass

theorem typeDefinition_answers : Answers all typeDefinition declarations stream :=
  .andThen openGroup_answers fun _ _ _ => .andThen identifier?_answers fun _ _ _ =>
    .andThen openGroup_answers fun _ _ _ => .andThen bindings_answers fun _ _ _ =>
    .andThen results_answers fun _ _ _ => .andThen rightParen_answers fun _ _ _ =>
    .andThen rightParen_answers fun _ _ _ => .pure _

theorem declareField_answers : Answers all declareField declarations stream := by
  refine .getStream ?_
  split
  · exact typeDefinition_answers.bind fun _ _ _ _ => .pure _
  · split
    · exact .modify (.lift skipGroup_answers)
    · exact .lift skipGroup_answers

theorem space_ne_type {space : IndexSpace} {name : Option String}
    (shown : stream.definition? = some (space, name)) : space ≠ .type := by
  obtain ⟨word, -, continued⟩ := Option.bind_eq_some_iff.mp shown
  split at continued
  · obtain ⟨_, found, ended⟩ := Option.bind_eq_some_iff.mp continued
    cases ended
    obtain ⟨inner, -, defines⟩ := Option.bind_eq_some_iff.mp found
    exact IndexSpace.ne_type_of_ofKeyword? defines
  · obtain ⟨_, defines, ended⟩ := Option.bind_eq_some_iff.mp continued
    cases ended
    exact IndexSpace.ne_type_of_ofKeyword? defines

/-- What the first pass does to the table of types in front of a field. -/
theorem declareField_types (run : declareField declarations stream = .ok (((), final), rest)) :
    ∃ group, stream = rest.prepend group ∧ IsGroup group ∧
      (declarations.Signed → final.Signed) ∧
      final.pendingTypes.length =
        declarations.pendingTypes.length + [group].countP definesType := by
  obtain ⟨_, _, _, gets, continued⟩ := bind_eq_ok.mp run
  cases gets
  cases isType : stream.atGroup .typeForm with
  | true =>
      simp only [isType, if_true, bind_eq_ok] at continued
      obtain ⟨definition, _, _, taken, ended⟩ := continued
      cases ended
      obtain ⟨group, name, signature, rfl, written, rfl, rfl⟩ := typeDefinition_sound taken
      refine ⟨group, rfl, written.isGroup, fun signed => signed.declareType name signature, ?_⟩
      simp [definesType, written.headed, Declarations.declareType, declare]
  | false =>
      have other {group : List Token} (isGroup : IsGroup group)
          (shape : stream = rest.prepend group) : [group].countP definesType = 0 := by
        apply countP_definesType_of_other
        rw [ne_eq, ← atGroup_typeForm_iff isGroup, ← shape, isType]
        exact Bool.false_ne_true
      cases defines : stream.definition? with
      | none =>
          simp only [isType, Bool.false_eq_true, if_false, defines, lift_eq_ok] at continued
          obtain ⟨skipped, rfl⟩ := continued
          obtain ⟨group, shape, isGroup⟩ := skipGroup_isGroup skipped
          exact ⟨group, shape, isGroup, id, by rw [other isGroup shape]; rfl⟩
      | some definition =>
          simp only [isType, Bool.false_eq_true, if_false, defines, bind_eq_ok, lift_eq_ok]
            at continued
          obtain ⟨⟨⟩, _, _, declares, skipped, rfl⟩ := continued
          cases declares
          obtain ⟨group, shape, isGroup⟩ := skipGroup_isGroup skipped
          refine ⟨group, shape, isGroup, fun signed => ?_, by rw [other isGroup shape]; rfl⟩
          exact signed.declare (space_ne_type defines) _

theorem declareFields_types {fuel : Nat}
    (run : declareFields fuel declarations stream = .ok (((), final), rest)) :
    ∃ groups : List (List Token), stream = rest.prepend groups.flatten ∧
      (∀ group ∈ groups, IsGroup group) ∧ rest.atLeftParen = false ∧
      (declarations.Signed → final.Signed) ∧
      final.pendingTypes.length =
        declarations.pendingTypes.length + groups.countP definesType := by
  induction fuel generalizing declarations stream with
  | zero => cases run
  | succ fuel ih =>
      obtain ⟨_, _, _, gets, continued⟩ := bind_eq_ok.mp run
      cases gets
      cases shown : stream.atLeftParen with
      | false =>
          simp only [shown] at continued
          cases continued
          exact ⟨[], rfl, nofun, shown, id, rfl⟩
      | true =>
          simp only [shown, if_true] at continued
          obtain ⟨⟨⟩, _, _, taken, repeated⟩ := bind_eq_ok.mp continued
          obtain ⟨group, rfl, isGroup, signs, one⟩ := declareField_types taken
          obtain ⟨groups, rfl, areGroups, stopped, signed, more⟩ := ih repeated
          refine ⟨group :: groups, by simp [prepend], List.forall_mem_cons.mpr ⟨isGroup, areGroups⟩,
            stopped, fun start => signed (signs start), ?_⟩
          rw [more, one, countP_definesType_cons group groups, Nat.add_assoc]

/-- The first pass takes a token for every field. -/
theorem declareFields_answers {fuel : Nat} (enough : stream.ahead.length < fuel) :
    Answers all (declareFields fuel) declarations stream := by
  induction fuel generalizing declarations stream with
  | zero => cases enough
  | succ fuel ih =>
      refine .getStream ?_
      split
      · refine declareField_answers.bind fun _ _ after taken => ih ?_
        obtain ⟨group, rfl, isGroup, -⟩ := declareField_types taken
        obtain ⟨left, inner, rfl, -⟩ := isGroup.first_token
        exact Nat.lt_of_lt_of_le (length_lt_prepend_cons _ _ _) (Nat.le_of_lt_succ enough)
      · exact .pure _

theorem declareAll_answers : Answers all declareAll declarations stream := by
  intro within
  have unfolded : declareAll declarations stream =
      (declareFields (stream.ahead.length + 1) >>= fun _ => set stream : Builder _) declarations
        stream :=
    rfl
  have answer : Answers all (declareFields (stream.ahead.length + 1)) declarations stream :=
    declareFields_answers (Nat.lt_succ_self _)
  rw [unfolded, bind_apply]
  -- The stream is put back, so that what the pass takes does not count.
  cases passed : declareFields (stream.ahead.length + 1) declarations stream with
  | ok result => exact ⟨[], rfl⟩
  | error error => exact Reader.Answers.concerns answer within passed

end FirstPass

section SecondPass

/-- The second pass meets the groups of the first one, and with them the types
that are pending. -/
theorem fields_answers {groups : List (List Token)} {fuel : Nat}
    (areGroups : ∀ group ∈ groups, IsGroup group) (stopped : rest.atLeftParen = false)
    (signed : declarations.Signed)
    (pending : declarations.pendingTypes.length = groups.countP definesType)
    (enough : groups.length < fuel) :
    Answers all (fields fuel) declarations (rest.prepend groups.flatten) := by
  induction groups generalizing declarations fuel with
  | nil =>
      obtain ⟨fuel, rfl⟩ : ∃ less, fuel = less + 1 := Nat.exists_eq_add_of_le' enough
      refine .getStream ?_
      rw [List.flatten_nil, prepend_nil, stopped]
      exact .pure _
  | cons group groups ih =>
      rw [List.length_cons] at enough
      obtain ⟨fuel, rfl⟩ : ∃ less, fuel = less + 1 := Nat.exists_eq_add_of_le' (by omega)
      obtain ⟨isGroup, moreGroups⟩ := List.forall_mem_cons.mp areGroups
      rw [List.flatten_cons, prepend_append]
      refine .getStream ?_
      rw [if_pos (atLeftParen_of_isGroup isGroup)]
      refine (field_answers signed ?_).bind fun part middle after taken => ?_
      · rw [isGroup.nth_one]
        intro isType nothing
        simp [nothing, definesType, isType] at pending
      · obtain ⟨readings, shape, written⟩ := field_sound taken
        obtain ⟨rfl, rfl⟩ := isGroup.prepend_unique written.read.isGroup shape
        obtain ⟨use, types⟩ := written.types signed
        have left : middle.pendingTypes.length = groups.countP definesType := by
          rw [countP_definesType_cons, ← types.defined, types.pending,
            List.length_append] at pending
          exact Nat.add_left_cancel pending
        exact (ih moreGroups (types.grown.signed signed) left (by omega)).bind
          fun _ _ _ _ => .pure _

/-- A module is read up to a token that does not fit, if there is one. -/
theorem module_answers : Answers all module .empty stream := by
  refine .andThen openGroup_answers fun _ _ _ => .andThen identifier?_answers fun id start _ => ?_
  refine declareAll_answers.bind fun _ middle between declared => .getStream ?_
  obtain ⟨rfl, behind, passed⟩ := declareAll_eq_ok declared
  obtain ⟨groups, rfl, areGroups, stopped, signed, pending⟩ := declareFields_types passed
  have counted := length_le_flatten areGroups
  have enough : groups.length < (behind.prepend groups.flatten).ahead.length + 1 := by
    rw [ahead_prepend, List.length_append]
    omega
  rw [show Declarations.empty.pendingTypes.length = 0 from rfl, Nat.zero_add] at pending
  refine (fields_answers areGroups stopped (signed rfl) pending enough).bind fun all _ _ _ =>
    .andThen rightParen_answers fun _ after _ => .current ?_
  split
  · exact .get (.pure _)
  · exact .lift (.unexpected nofun)

end SecondPass

end Builder

/-- Of a token only its kind and its place can be blamed. -/
theorem ParseError.Blames.congr {error : ParseError} {token other : Token}
    (blames : error.Blames token) (kind : other.kind = token.kind)
    (span : other.span = token.span) : error.Blames other := by
  rw [Blames, kind, span]
  exact blames

/-- The message of an unexpected token describes the token. -/
theorem ParseError.Blames.message {error : ParseError} {token : Token}
    (blames : error.Blames token) {expected : Expectation} {found : TokenKind}
    (fault : error.fault = .unexpected expected found) :
    error.message = "expected " ++ expected.describe ++ ", found " ++ token.kind.describe ++
      " at " ++ token.span.describe := by
  obtain ⟨span, kind⟩ := blames
  rw [fault] at kind
  rw [ParseError.message, fault, span, ← kind]
  rfl

/-- A token of a source has the place at which its text stands. -/
theorem tokenise_covers {source : String} {tokens : List Token}
    (lexed : tokenise source = .ok tokens) {token : Token} (member : token ∈ tokens) :
    ∃ front back, source.toList = front ++ token.text.toList ++ back ∧
      token.span.Covers front token.text.toList := by
  have among := Lexer.collect_among (source.toList.length + 1) (.ofSource source)
  change Lexer.Among _ (tokenise source) at among
  rw [lexed] at among
  obtain ⟨tiles, gap, lead, covered, back, located⟩ := Lexer.located_of_mem (among token member)
  obtain ⟨rfl, rfl⟩ := located.concerns
  exact ⟨_, back, located.source_eq, located.covers⟩

/-- The tokens of a source end with the end of input. -/
theorem ended_of_tokenise {source : String} {tokens : List Token}
    (lexed : tokenise source = .ok tokens) : ended tokens = tokens := by
  obtain ⟨tiles, last, tiled⟩ := Lexer.collect_tiled (Nat.lt_succ_self _) lexed
  rw [tiled.tokens_eq, ended_concat]
  rfl

namespace Module

theorem ofStream_concerns {error : ParseError} (rejected : ofStream stream = .error error) :
    error.Concerns stream.shown := by
  refine Reader.Answers.concerns Builder.module_answers (List.Subset.refl _) ?_
  have run : ofStream stream =
      (Builder.module .empty stream).bind fun result => .ok result.1.1 := rfl
  rw [run] at rejected
  cases read : Builder.module .empty stream with
  | ok result =>
      rw [read] at rejected
      cases rejected
  | error fault =>
      rw [read] at rejected
      cases rejected
      rfl

theorem ofTokens_concerns {tokens : List Token} {error : ParseError}
    (rejected : ofTokens tokens = .error error) : error.Concerns (ended tokens) := by
  obtain ⟨last, shape, kind, span⟩ := exists_ended tokens
  obtain ⟨⟨token, member, blames⟩, declared⟩ := ofStream_concerns rejected
  rw [shape]
  obtain ahead | isLast := List.mem_append.mp member
  · exact ⟨⟨token, List.mem_append_left _ ahead, blames⟩, declared⟩
  · cases List.mem_singleton.mp isLast
    exact ⟨⟨last, List.mem_append_right _ (List.mem_singleton_self _), blames.congr kind span⟩,
      declared⟩

/-- Tokens that are no module are rejected at one of them.  The error has the
span of a token, up to the end of input, and says what that token is; where
another token was expected, its message describes the one that was found.  If
the tokens are those of a source text, the error has the line and the column at
which the text of the token stands in the source. -/
theorem ofTokens_blames_token {tokens : List Token} {error : ParseError}
    (rejected : ofTokens tokens = .error error) :
    (∃ token ∈ ended tokens, error.Blames token ∧
      ∀ expected found, error.fault = .unexpected expected found →
        error.message = "expected " ++ expected.describe ++ ", found " ++ token.kind.describe ++
          " at " ++ token.span.describe) ∧
    ∀ source, tokenise source = .ok tokens → ∃ token ∈ tokens, error.Blames token ∧
      ∃ front back, source.toList = front ++ token.text.toList ++ back ∧
        error.span.Covers front token.text.toList := by
  obtain ⟨token, member, blames⟩ := (ofTokens_concerns rejected).blames
  refine ⟨⟨token, member, blames, fun _ _ => blames.message⟩, fun source lexed => ?_⟩
  rw [ended_of_tokenise lexed] at member
  refine ⟨token, member, blames, ?_⟩
  rw [blames.1]
  exact tokenise_covers lexed member

/-- A function with a branch to a label that no block has. -/
def strayBranch : String :=
  "(module\n (func br $a))"

def strayTokens : List Token :=
  [⟨.leftParen, "(", ⟨0, 1, 1, 1⟩⟩, ⟨.keyword .moduleForm, "module", ⟨1, 7, 1, 2⟩⟩,
    ⟨.leftParen, "(", ⟨9, 10, 2, 2⟩⟩, ⟨.keyword .funcForm, "func", ⟨10, 14, 2, 3⟩⟩,
    ⟨.keyword .br, "br", ⟨15, 17, 2, 8⟩⟩, ⟨.identifier "a", "$a", ⟨18, 20, 2, 11⟩⟩,
    ⟨.rightParen, ")", ⟨20, 21, 2, 13⟩⟩, ⟨.rightParen, ")", ⟨21, 22, 2, 14⟩⟩,
    .endAt ⟨22, 22, 2, 15⟩]

/-- The label is read before it is blamed, and the end of input is blamed where
it is missing. -/
theorem ofTokens_blames_token_strayBranch :
    let error : ParseError := ⟨.undefined .label (.name "a"), ⟨18, 20, 2, 11⟩⟩
    tokenise strayBranch = .ok strayTokens ∧ ofTokens strayTokens = .error error ∧
      (∃ token ∈ strayTokens, error.Blames token ∧ ∃ front back,
        strayBranch.toList = front ++ token.text.toList ++ back ∧
          error.span.Covers front token.text.toList) ∧
      ∃ token ∈ ended [⟨.leftParen, "(", ⟨0, 1, 1, 1⟩⟩], ParseError.Blames
        ⟨.unexpected (.keyword .moduleForm) .endOfInput, ⟨1, 1, 1, 1⟩⟩ token := by
  intro error
  have lexed : tokenise strayBranch = .ok strayTokens := by decide +kernel
  have rejected : ofTokens strayTokens = .error error := rfl
  obtain ⟨token, member, blames, -⟩ :=
    (@ofTokens_blames_token [⟨.leftParen, "(", ⟨0, 1, 1, 1⟩⟩] _ rfl).1
  exact ⟨lexed, rejected, (ofTokens_blames_token rejected).2 _ lexed, token, member, blames⟩

end Module

end WatMachine
