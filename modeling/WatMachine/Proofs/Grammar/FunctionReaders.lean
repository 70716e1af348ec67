import WatMachine.Proofs.Grammar.FieldPhrases

/-!
# Functions are read by their grammar

Reading a function takes exactly the tokens of a function as its grammar
writes it, with the same effect on the declarations.  Where a part of a
function ends is seen from the head word of the next group, so it matters that
no two parts have a head word in common.
-/

namespace WatMachine

open TokenStream Reading Reader

namespace Builder

variable {declarations final : Declarations} {stream rest : TokenStream}

section Types

variable {index : Nat}

theorem declaredType_eq_ok {signature : Signature} :
    declaredType declarations stream = .ok (((index, signature), final), rest) ↔
      final = declarations ∧ declarations.signatures[index]? = some signature ∧
        ∃ type, stream = rest.prepend (tokens type) ∧
          TypeReference (declarations.environment.names.get .type) type index := by
  constructor
  · intro run
    simp only [declaredType, bind_eq_ok, lift_eq_ok] at run
    obtain ⟨_, _, _, shown, ⟨⟩, _, behind, ⟨opened, rfl⟩, ⟨place, span⟩, _, middle, ⟨taken, rfl⟩,
      run⟩ := run
    cases shown
    cases found : declarations.signatures[place]? with
    | none =>
        simp only [found, lift_eq_ok] at run
        cases run.1
    | some signature =>
        simp only [found, bind_eq_ok, lift_eq_ok] at run
        obtain ⟨⟨⟩, _, last, ⟨closed, rfl⟩, ended⟩ := run
        cases ended
        obtain ⟨left, head, rfl, isLeft, isHead⟩ := openGroup_eq_ok.mp opened
        obtain ⟨token, rfl, refers, -⟩ := definitionIndex_eq_ok.mp taken
        obtain ⟨right, rfl, isRight⟩ := rightParen_eq_ok.mp closed
        exact ⟨rfl, found, _, rfl, .mk isLeft isHead refers isRight⟩
  · rintro ⟨rfl, found, type, rfl, @⟨left, head, token, right, _, isLeft, isHead, refers, isRight⟩⟩
    have opened := openGroup_eq_ok.mpr
      ⟨left, head, (rfl : _ = (rest.prepend [token, right]).prepend _), isLeft, isHead⟩
    have taken : definitionIndex final.environment .typeIndex .type
        (rest.prepend [token, right]) = .ok ((index, token.span), rest.prepend [right]) :=
      definitionIndex_eq_ok.mpr ⟨token, rfl, refers, rfl⟩
    have closed := rightParen_eq_ok.mpr ⟨right, (rfl : _ = rest.prepend _), isRight⟩
    refine bind_eq_ok.mpr ⟨_, _, _, rfl, bind_eq_ok.mpr ⟨_, _, _, lift_eq_ok.mpr ⟨opened, rfl⟩,
      bind_eq_ok.mpr ⟨_, _, _, lift_eq_ok.mpr ⟨taken, rfl⟩, ?_⟩⟩⟩
    simp only [found]
    exact bind_eq_ok.mpr ⟨_, _, _, lift_eq_ok.mpr ⟨closed, rfl⟩, rfl⟩

/-- What is made of the type of a function, its parameters and its results. -/
def typeUseWith (declared : Option (Nat × Signature)) (params : List LocalVariable)
    (results : List ValueType) : Builder (Nat × Frame) :=
  match declared with
  | some (index, signature) => pure (index, Frame.ofTypeUse signature params results)
  | none => do
      let index ← declareType none (Frame.ofParams params results).signature
      return (index, Frame.ofParams params results)

theorem typeUse_apply :
    typeUse declarations stream =
      ((if stream.atGroup .typeForm then some <$> declaredType else pure none) >>=
        fun declared => (liftM (bindings .paramForm) : Builder _) >>= fun params =>
          (liftM results : Builder _) >>= fun results => typeUseWith declared params results)
        declarations stream := by
  have made (declared : Option (Nat × Signature)) (params : List LocalVariable)
      (results : List ValueType) :
      typeUseWith declared params results =
        match declared with
        | some (index, signature) =>
            if params.isEmpty && results.isEmpty then pure (index, .ofSignature signature)
            else pure (index, .ofParams params results)
        | none => do
            let index ← declareType none (Frame.ofParams params results).signature
            return (index, Frame.ofParams params results) := by
    rcases declared with _ | ⟨index, signature⟩
    · rfl
    · simp only [typeUseWith, Frame.ofTypeUse]
      split <;> rfl
  simp only [made]
  change (if stream.atGroup .typeForm = true then _ else _ : Builder (Nat × Frame))
    declarations stream = _
  cases stream.atGroup .typeForm <;> rfl

theorem typeUse_sound {typeIndex : Nat} {frame : Frame}
    (run : typeUse declarations stream = .ok (((typeIndex, frame), final), rest)) :
    ∃ readings, stream = rest.prepend (tokens readings) ∧
      TypeUse declarations readings (typeIndex, frame) final := by
  rw [typeUse_apply] at run
  simp only [bind_eq_ok, lift_eq_ok] at run
  obtain ⟨declared, _, _, called, params, _, _, ⟨taken, rfl⟩, results, _, _, ⟨given, rfl⟩,
    made⟩ := run
  split at called
  · rw [← bind_pure_comp] at called
    obtain ⟨⟨index, signature⟩, _, _, resolved, ended⟩ := bind_eq_ok.mp called
    cases ended
    cases made
    obtain ⟨rfl, found, type, rfl, reference⟩ := declaredType_eq_ok.mp resolved
    obtain ⟨front, rfl, _, bound, rfl⟩ := (bindings_reads _).sound taken
    obtain ⟨back, rfl, _, types, rfl⟩ := results_reads.sound given
    refine ⟨_, ?_, .declared reference found bound types⟩
    simp [prepend]
  · cases called
    cases made
    obtain ⟨front, rfl, _, bound, rfl⟩ := (bindings_reads _).sound taken
    obtain ⟨back, rfl, _, types, rfl⟩ := results_reads.sound given
    refine ⟨_, ?_, .inline bound types⟩
    simp [prepend]

end Types

end Builder

namespace TokenStream.Beyond

variable {words : List Keyword} {stream : TokenStream}

theorem typeUse {before after : Declarations} {readings : List Reading} {used : Nat × Frame}
    (isUse : TypeUse before readings used after) (beyond : Beyond words stream)
    (others : .typeForm ∉ words ∧ .paramForm ∉ words ∧ .resultForm ∉ words) :
    Beyond words (stream.prepend (tokens readings)) := by
  cases isUse with
  | declared reference =>
      rw [tokens_append, prepend_append]
      exact group reference.group others.1
  | inline bound given =>
      rw [tokens_others, prepend_append]
      exact (beyond.groups given others.2.2).groups bound others.2.1

theorem functionTail {environment : Environment} {index typeIndex : Nat} {frame : Frame}
    {source : Option (String × String)} {readings : List Reading} {field : Field}
    (tail : FunctionTail environment index typeIndex frame source readings field)
    (beyond : Beyond words stream) (others : .localForm ∉ words)
    (uncoded : ∀ word ∈ words, word.isInstruction = false) :
    Beyond words (stream.prepend (tokens readings)) := by
  cases tail with
  | imported => exact beyond
  | defined bound read =>
      rw [tokens_append, tokens_others, prepend_append]
      exact (derives read.derives beyond uncoded).groups bound others

theorem inlineImport {all : List Token} {source : Option (String × String)}
    (importing : InlineImport all source) (beyond : Beyond words stream)
    (other : .importForm ∉ words) : Beyond words (stream.prepend all) := by
  cases importing with
  | omitted => exact beyond
  | written grouped => exact group grouped other

end TokenStream.Beyond

namespace Builder

variable {declarations final : Declarations} {stream rest : TokenStream}

/-- Parameters and results are read in front of another group. -/
theorem signature_complete {params results : List Token} {locals : List (List LocalVariable)}
    {types : List (List ValueType)} (bound : BindingGroups .paramForm params locals)
    (given : ResultGroups results types) (beyond : Beyond [.paramForm, .resultForm] rest) :
    bindings .paramForm (rest.prepend (params ++ results)) =
        .ok (locals.flatten, rest.prepend results) ∧
      Reader.results (rest.prepend results) = .ok (types.flatten, rest) := by
  have behindParams : Beyond [.paramForm] (rest.prepend results) :=
    (beyond.mono (by simp)).groups given (by decide)
  constructor
  · rw [prepend_append]
    exact (bindings_reads .paramForm).complete _ ⟨locals, bound, rfl⟩
      (behindParams.free .paramForm (by simp))
  · exact results_reads.complete rest ⟨types, given, rfl⟩ (beyond.free .resultForm (by simp))

theorem typeUse_complete {readings : List Reading} {typeIndex : Nat} {frame : Frame}
    (used : TypeUse declarations readings (typeIndex, frame) final)
    (beyond : Beyond [.typeForm, .paramForm, .resultForm] rest) :
    typeUse declarations (rest.prepend (tokens readings)) =
      .ok (((typeIndex, frame), final), rest) := by
  have signed : Beyond [.paramForm, .resultForm] rest := beyond.mono (by simp)
  rw [typeUse_apply]
  cases used with
  | @declared type _ signature params results _ _ reference found bound given =>
      obtain ⟨taken, gives⟩ := signature_complete bound given signed
      have called : declaredType declarations
          ((rest.prepend (params ++ results)).prepend (tokens type)) =
          .ok (((typeIndex, signature), declarations), rest.prepend (params ++ results)) :=
        declaredType_eq_ok.mpr ⟨rfl, found, type, rfl, reference⟩
      rw [tokens_append, tokens_others, prepend_append, (group_shows reference.group _).2,
        if_pos rfl]
      refine bind_eq_ok.mpr ⟨some (typeIndex, signature), _, _, ?_, bind_eq_ok.mpr
        ⟨_, _, _, lift_eq_ok.mpr ⟨taken, rfl⟩, bind_eq_ok.mpr
          ⟨_, _, _, lift_eq_ok.mpr ⟨gives, rfl⟩, rfl⟩⟩⟩
      rw [← bind_pure_comp]
      exact bind_eq_ok.mpr ⟨_, _, _, called, rfl⟩
  | @inline params results _ _ bound given =>
      obtain ⟨taken, gives⟩ := signature_complete bound given signed
      have untyped : (rest.prepend (params ++ results)).atGroup .typeForm = false := by
        have behindResults : Beyond [.typeForm] (rest.prepend results) :=
          (beyond.mono (by simp)).groups given (by decide)
        rw [prepend_append]
        exact (behindResults.groups bound (by decide)).free .typeForm (by simp)
      rw [tokens_others, untyped]
      exact bind_eq_ok.mpr ⟨none, _, _, rfl, bind_eq_ok.mpr
        ⟨_, _, _, lift_eq_ok.mpr ⟨taken, rfl⟩, bind_eq_ok.mpr
          ⟨_, _, _, lift_eq_ok.mpr ⟨gives, rfl⟩, rfl⟩⟩⟩

section Functions

theorem inlineExport_reads :
    Reads inlineExport (Group .exportForm StringWord) (fun _ => True) := by
  refine group_reads ⟨fun read => ?_, ?_⟩ _
  · obtain ⟨token, rfl, isString⟩ := string_eq_ok.mp read
    exact ⟨[token], rfl, token, rfl, isString⟩
  · rintro _ value after ⟨token, rfl, isString⟩ -
    exact string_eq_ok.mpr ⟨token, rfl, isString⟩

theorem inlineImport_reads :
    Reads inlineImport (Group .importForm StringPair) (fun _ => True) := by
  have pair : Reads (string >>= fun source => string >>= fun name => pure (source, name))
      StringPair (fun after => after.current.kind = .rightParen) := by
    refine ⟨fun read => ?_, ?_⟩
    · simp only [Reader.bind_eq_ok] at read
      obtain ⟨source, _, sourced, name, _, named, ended⟩ := read
      cases ended
      obtain ⟨first, rfl, isSource⟩ := string_eq_ok.mp sourced
      obtain ⟨second, rfl, isName⟩ := string_eq_ok.mp named
      exact ⟨[first, second], rfl, first, second, rfl, isSource, isName⟩
    · rintro _ ⟨source, name⟩ after ⟨first, second, rfl, isSource, isName⟩ -
      exact Reader.bind_eq_ok.mpr ⟨source, after.prepend [second],
        string_eq_ok.mpr ⟨first, rfl, isSource⟩, Reader.bind_eq_ok.mpr ⟨name, after,
          string_eq_ok.mpr ⟨second, rfl, isName⟩, rfl⟩⟩
  have grouped := group_reads pair .importForm
  simpa only [inlineImport, bind_assoc, pure_bind] using grouped

/-- Reads the import of a function, if there is one. -/
def inlineImport? : Reader (Option (String × String)) := do
  if (← get).atGroup .importForm then some <$> inlineImport else pure none

theorem inlineImport?_reads :
    Reads inlineImport? InlineImport (fun after => after.atGroup .importForm = false) where
  sound {stream source after} read := by
    obtain ⟨_, _, shown, continued⟩ := Reader.bind_eq_ok.mp read
    cases shown
    split at continued
    · rw [← bind_pure_comp] at continued
      obtain ⟨names, _, taken, ended⟩ := Reader.bind_eq_ok.mp continued
      cases ended
      obtain ⟨all, shape, grouped⟩ := inlineImport_reads.sound taken
      exact ⟨all, shape, .written grouped⟩
    · cases continued
      exact ⟨[], rfl, .omitted⟩
  complete after := by
    rintro (_ | grouped) ended
    · rw [prepend_nil, inlineImport?, Reader.bind_apply, Reader.get_apply]
      simp only [ended]
      rfl
    · have taken := inlineImport_reads.complete after grouped trivial
      rw [inlineImport?, Reader.bind_apply, Reader.get_apply]
      simp only [(group_shows grouped after).2, if_true]
      rw [Reader.map_apply, taken]

theorem liftM_inlineImport? :
    (liftM inlineImport? : Builder _) = getThe TokenStream >>= fun stream =>
      if stream.atGroup .importForm then some <$> (liftM inlineImport : Builder _)
      else pure none := by
  funext declarations stream
  change (if stream.atGroup .importForm = true then some <$> inlineImport else pure none :
      Reader _) stream >>= _ =
    (if stream.atGroup .importForm = true then some <$> (liftM inlineImport : Builder _)
      else pure none : Builder _) declarations stream
  cases stream.atGroup .importForm with
  | false => rfl
  | true =>
      have lifted : (some <$> (liftM inlineImport : Builder _)) declarations stream =
          ((inlineImport >>= fun names => pure (names, declarations)) >>= fun result =>
            pure (some result.1, result.2)) stream := by
        rw [← bind_pure_comp]
        rfl
      rw [if_pos rfl, if_pos rfl, lifted, Reader.map_apply, Reader.bind_apply, Reader.bind_apply]
      cases inlineImport stream <;> rfl

theorem function_eq :
    function = (liftM (openGroup .funcForm) : Builder _) >>= fun _ =>
      claim .function >>= fun index =>
      (liftM identifier? : Builder _) >>= fun _ =>
      (liftM (many (atGroup .exportForm) inlineExport) : Builder _) >>= fun names =>
      (liftM inlineImport? : Builder _) >>= fun source =>
      typeUse >>= fun used =>
      functionField index used.1 used.2 source >>= fun field =>
      pure (field :: names.map fun name => .exported ⟨name, .function, index⟩) := by
  rw [liftM_inlineImport?, function]
  simp only [bind_assoc]
  congr
  funext _
  congr
  funext index
  congr
  funext _
  congr
  funext names
  congr
  funext stream
  split <;> rfl

section Tails

variable {index typeIndex : Nat} {frame : Frame} {source : Option (String × String)}
  {field : Field}

theorem functionField_sound
    (run : functionField index typeIndex frame source declarations stream =
      .ok ((field, final), rest)) :
    final = declarations ∧ ∃ tail right, stream = rest.prepend (tokens tail ++ [right]) ∧
      FunctionTail declarations.environment index typeIndex frame source tail field ∧
      right.kind = .rightParen := by
  cases source with
  | some names =>
      simp only [functionField, bind_eq_ok, lift_eq_ok] at run
      obtain ⟨⟨⟩, _, _, ⟨closed, rfl⟩, ended⟩ := run
      cases ended
      obtain ⟨right, rfl, isRight⟩ := rightParen_eq_ok.mp closed
      exact ⟨rfl, [], right, rfl, .imported, isRight⟩
  | none =>
      simp only [functionField, bind_eq_ok, lift_eq_ok] at run
      obtain ⟨locals, _, _, ⟨bound, rfl⟩, _, _, _, shown, body, _, _, ⟨followed, rfl⟩, ⟨⟩, _, _,
        ⟨closed, rfl⟩, ended⟩ := run
      cases shown
      cases ended
      obtain ⟨groups, rfl, _, isBound, rfl⟩ := (bindings_reads _).sound bound
      obtain ⟨all, rfl, derived⟩ := body_sound followed
      obtain ⟨readings, rfl, read⟩ := derived.exists_read
      obtain ⟨right, rfl, isRight⟩ := rightParen_eq_ok.mp closed
      exact ⟨rfl, _, right, by simp [prepend], .defined isBound read, isRight⟩

theorem body_complete {environment : Environment} {readings : List Reading}
    {code : List Instruction} {right : Token}
    (read : PhraseRead .sequence ⟨environment, frame, []⟩ readings code)
    (closed : right.kind = .rightParen) :
    Reader.body environment frame ((rest.prepend [right]).prepend (tokens readings)) =
      .ok (code, rest.prepend [right]) := by
  have ends : (rest.prepend [right]).current.kind.endsSequence = true := by
    rw [current_prepend_cons, closed]
    rfl
  have enough : Phrase.sequence.fuel (tokens readings).length ≤
      3 * (((rest.prepend [right]).prepend (tokens readings)).ahead.length + 1) := by
    simp only [Phrase.fuel, ahead_prepend, List.length_append]
    omega
  have followed := read.derives.read enough ends
  exact Reader.bind_eq_ok.mpr ⟨_, _, rfl, followed⟩

theorem functionField_complete {tail : List Reading} {right : Token}
    (followed : FunctionTail declarations.environment index typeIndex frame source tail field)
    (closed : right.kind = .rightParen) :
    functionField index typeIndex frame source declarations
        (rest.prepend (tokens tail ++ [right])) = .ok ((field, declarations), rest) := by
  have closes := rightParen_eq_ok.mpr ⟨right, (rfl : _ = rest.prepend _), closed⟩
  cases followed with
  | imported => exact bind_eq_ok.mpr ⟨_, _, _, lift_eq_ok.mpr ⟨closes, rfl⟩, rfl⟩
  | @defined groups locals body code bound read =>
      have ended : Beyond [.localForm] (rest.prepend [right]) := .of_rightParen closed
      have bodied : Beyond [.localForm] ((rest.prepend [right]).prepend (tokens body)) :=
        .derives read.derives ended (by simp [Keyword.isInstruction])
      have taken := (bindings_reads .localForm).complete _ ⟨locals, bound, rfl⟩
        (bodied.free .localForm (by simp))
      have followed : Reader.body declarations.environment _
          ((rest.prepend [right]).prepend (tokens body)) = .ok (code, rest.prepend [right]) :=
        body_complete read closed
      rw [tokens_append, tokens_others, prepend_append, prepend_append]
      exact bind_eq_ok.mpr ⟨_, _, _, lift_eq_ok.mpr ⟨taken, rfl⟩, bind_eq_ok.mpr ⟨_, _, _, rfl,
        bind_eq_ok.mpr ⟨_, _, _, lift_eq_ok.mpr ⟨followed, rfl⟩, bind_eq_ok.mpr
          ⟨_, _, _, lift_eq_ok.mpr ⟨closes, rfl⟩, rfl⟩⟩⟩⟩

end Tails

theorem function_sound {part : List Field}
    (run : function declarations stream = .ok ((part, final), rest)) :
    ∃ readings label, stream = rest.prepend (tokens readings) ∧
      FunctionWritten declarations readings label part final := by
  rw [function_eq] at run
  simp only [bind_eq_ok, lift_eq_ok, claim_eq_ok] at run
  obtain ⟨⟨⟩, _, _, ⟨opened, rfl⟩, _, _, _, ⟨rfl, rfl, rfl⟩, label, _, _, ⟨named, rfl⟩, names, _, _,
    ⟨exported, rfl⟩, source, _, _, ⟨importing, rfl⟩, ⟨typeIndex, frame⟩, _, _, typed, field, _, _,
    followed, ended⟩ := run
  cases ended
  obtain ⟨left, head, rfl, isLeft, isHead⟩ := openGroup_eq_ok.mp opened
  obtain ⟨name, rfl, isName, -⟩ := identifier?_eq_ok.mp named
  obtain ⟨exports, rfl, areExports⟩ := (many_groups_reads inlineExport_reads).sound exported
  obtain ⟨imported, rfl, isImport⟩ := inlineImport?_reads.sound importing
  obtain ⟨type, rfl, isType⟩ := typeUse_sound typed
  obtain ⟨rfl, tail, right, rfl, isTail, isRight⟩ := functionField_sound followed
  refine ⟨_, label, ?_, .mk isLeft isHead isName areExports isImport isType isTail isRight⟩
  simp [prepend]

theorem function_complete {readings : List Reading} {label : Option String} {part : List Field}
    (written : FunctionWritten declarations readings label part final) :
    function declarations (rest.prepend (tokens readings)) = .ok ((part, final), rest) := by
  obtain @⟨left, head, right, name, exports, imported, _, names, source, type, tail, typeIndex,
    frame, field, _, opened, headed, named, exported, importing, typed, followed, closed⟩ := written
  -- The streams in front of each part, from the last one to the first.
  let atTail := rest.prepend (tokens tail ++ [right])
  let atType := atTail.prepend (tokens type)
  let atImport := atType.prepend imported
  let atExports := atImport.prepend exports
  have tailBeyond :
      Beyond [.exportForm, .importForm, .typeForm, .paramForm, .resultForm] atTail := by
    have ended : Beyond [.exportForm, .importForm, .typeForm, .paramForm, .resultForm]
        (rest.prepend [right]) := .of_rightParen closed
    have beyond := Beyond.functionTail followed ended (by decide) (by decide)
    rwa [← prepend_append] at beyond
  have typeBeyond : Beyond [.exportForm, .importForm] atType :=
    .typeUse typed (tailBeyond.mono (by simp)) (by decide)
  have importBeyond : Beyond [.exportForm] atImport :=
    .inlineImport importing (typeBeyond.mono (by simp)) (by decide)
  have exportsBeyond : Beyond [] atExports :=
    (importBeyond.mono (by simp)).groups exported (by decide)
  have opens := openGroup_eq_ok.mpr
    ⟨left, head, (rfl : _ = (atExports.prepend name).prepend _), opened, headed⟩
  have labelled : identifier? (atExports.prepend name) = .ok (label, atExports) :=
    identifier?_eq_ok.mpr ⟨name, rfl, named, fun _ => exportsBeyond.unnamed⟩
  have exporting := (many_groups_reads inlineExport_reads).complete atImport exported
    (importBeyond.free .exportForm (by simp))
  have imports := inlineImport?_reads.complete atType importing
    (typeBeyond.free .importForm (by simp))
  have used : typeUse (declarations.claim .function) atType =
      .ok (((typeIndex, frame), final), atTail) :=
    typeUse_complete typed (tailBeyond.mono (by simp))
  have ends : functionField (declarations.claimed.get .function) typeIndex frame source final
      atTail = .ok ((field, final), rest) :=
    functionField_complete followed closed
  have whole : rest.prepend (tokens (others (left :: head :: name ++ exports ++ imported) ++ type ++
      tail ++ others [right])) = (atExports.prepend name).prepend [left, head] := by
    simp [atExports, atImport, atType, atTail, prepend]
  rw [whole, function_eq]
  exact bind_eq_ok.mpr ⟨_, _, _, lift_eq_ok.mpr ⟨opens, rfl⟩, bind_eq_ok.mpr ⟨_, _, _,
    claim_eq_ok.mpr ⟨rfl, rfl, rfl⟩, bind_eq_ok.mpr ⟨_, _, _, lift_eq_ok.mpr ⟨labelled, rfl⟩,
    bind_eq_ok.mpr ⟨_, _, _, lift_eq_ok.mpr ⟨exporting, rfl⟩, bind_eq_ok.mpr ⟨_, _, _,
    lift_eq_ok.mpr ⟨imports, rfl⟩, bind_eq_ok.mpr ⟨_, _, _, used, bind_eq_ok.mpr ⟨_, _, _, ends,
    rfl⟩⟩⟩⟩⟩⟩⟩

end Functions

end Builder

end WatMachine
