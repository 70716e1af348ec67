import WatMachine.Proofs.Grammar.FieldReaders
import WatMachine.Proofs.Machine.Meanings
import WatMachine.Proofs.Token.Concatenation
import WatMachine.Proofs.Token.Numerals
import WatMachine.Run

/-!
# Constants from numeral to result

A module with one function that does nothing but give a constant, from its
source to the result of a call.  Each stage is stated for itself: the tokens of
the source, the module that they spell, and the word that a call gives.  The
numeral decides all of it: it is no integer, or an integer that is no word of
32 bits, or the word that the call gives.
-/

namespace WatMachine

open Source Lexeme

/-- What stands in front of the literal of a constant source. -/
def constantHead : String :=
  "(module (func (export \"f\") (result i32) i32.const"

/-- The source of a module whose function gives a constant. -/
def constantSource (literal : List Char) : String :=
  constantHead ++ " " ++ String.ofList literal ++ "))"

/-- The tokens of a constant source in front of its literal. -/
def constantFront : List Token :=
  [⟨.leftParen, "(", ⟨0, 1, 1, 1⟩⟩, ⟨.keyword .moduleForm, "module", ⟨1, 7, 1, 2⟩⟩,
    ⟨.leftParen, "(", ⟨8, 9, 1, 9⟩⟩, ⟨.keyword .funcForm, "func", ⟨9, 13, 1, 10⟩⟩,
    ⟨.leftParen, "(", ⟨14, 15, 1, 15⟩⟩, ⟨.keyword .exportForm, "export", ⟨15, 21, 1, 16⟩⟩,
    ⟨.string "f", "\"f\"", ⟨22, 25, 1, 23⟩⟩, ⟨.rightParen, ")", ⟨25, 26, 1, 26⟩⟩,
    ⟨.leftParen, "(", ⟨27, 28, 1, 28⟩⟩, ⟨.keyword .resultForm, "result", ⟨28, 34, 1, 29⟩⟩,
    ⟨.keyword .i32Type, "i32", ⟨35, 38, 1, 36⟩⟩, ⟨.rightParen, ")", ⟨38, 39, 1, 39⟩⟩,
    ⟨.keyword .i32Const, "i32.const", ⟨40, 49, 1, 41⟩⟩]

/-- Where the literal of a constant source starts. -/
def literalStart : Position := ⟨50, 1, 51⟩

def literalSpan (literal : List Char) : Span :=
  literalStart.spanTo (literalStart.after literal)

section Lexing

theorem tokenise_constantSource (literal : List Char) :
    tokenise (constantSource literal) =
      (Cursor.tokens ⟨literalStart, literal ++ [')', ')']⟩).map (constantFront ++ ·) := by
  have text : (constantSource literal).toList =
      constantHead.toList ++ ' ' :: (literal ++ [')', ')']) := by
    simp [constantSource]
  have lexed : (Cursor.ofCharacters constantHead.toList).tokens =
      .ok (constantFront ++ [.endAt ⟨49, 49, 1, 50⟩]) := by
    decide +kernel
  have noComment : ';' ∉ constantHead.toList := by decide +kernel
  have joined := Cursor.tokens_before_blank (literal ++ [')', ')']) (by decide) lexed
    fun gap inside isGap => isGap.append_blank (mt (fun among => inside.subset among) noComment)
  have place : (Position.first.after constantHead.toList).advance ' ' = literalStart := by
    decide +kernel
  have kept : (constantFront ++ [Token.endAt ⟨49, 49, 1, 50⟩]).filter (!·.isEnd) =
      constantFront := by
    decide +kernel
  simp only [Cursor.ofCharacters, place, kept] at joined
  rw [tokenise_eq_tokens, text, Cursor.ofCharacters, joined]

variable {sign digits : List Char}

theorem closing_ends : ∀ c ∈ [')', ')'].head?, isDigitOrSeparator c = false := by
  rintro c ⟨⟩
  decide

/-- An integer is followed by the two parentheses that close the source. -/
theorem tokenise_of_isInteger (numeral : IsNumeral sign digits)
    (isInteger : IsInteger sign digits) :
    ∃ right last finish, tokenise (constantSource (sign ++ digits)) = .ok (constantFront ++
      [⟨.integer (numeralValue sign digits), String.ofList (sign ++ digits),
          literalSpan (sign ++ digits)⟩,
        ⟨.rightParen, ")", right⟩, ⟨.rightParen, ")", last⟩, .endAt finish]) := by
  have stepped : Cursor.next ⟨literalStart, sign ++ digits ++ [')', ')']⟩ = _ :=
    Cursor.next_of_numeral .nil numeral closing_ends literalStart
  rw [if_pos ⟨by decide, isInteger⟩] at stepped
  have closed (position : Position) : ∃ right last finish,
      Cursor.tokens ⟨position, [')', ')']⟩ =
        .ok [⟨.rightParen, ")", right⟩, ⟨.rightParen, ")", last⟩, .endAt finish] :=
    ⟨_, _, _, rfl⟩
  obtain ⟨right, last, finish, others⟩ := closed (literalStart.after (sign ++ digits))
  refine ⟨right, last, finish, ?_⟩
  rw [tokenise_constantSource, Cursor.tokens_of_next stepped rfl, List.nil_append, others]
  rfl

theorem tokenise_of_not_isInteger (numeral : IsNumeral sign digits)
    (noInteger : ¬IsInteger sign digits) :
    tokenise (constantSource (sign ++ digits)) =
      .error ⟨.invalidInteger (String.ofList (sign ++ digits)), literalSpan (sign ++ digits)⟩ := by
  have failed : Cursor.next ⟨literalStart, sign ++ digits ++ [')', ')']⟩ = _ :=
    Cursor.next_of_numeral .nil numeral closing_ends literalStart
  have nothing : [')', ')'].takeWhile isWordChar = [] := by decide
  rw [if_neg (fun both => noInteger both.2), nothing, List.append_nil, List.append_nil] at failed
  rw [tokenise_constantSource, Cursor.tokens_of_error failed]
  rfl

end Lexing

/-- The word that an integer stands for behind `i32.const`, or the error at its
place. -/
def wordOf (value : Int) (span : Span) : Except ParseError Int :=
  if -0x80000000 ≤ value ∧ value < 0x100000000 then .ok (Int32.ofInt value).toInt
  else .error ⟨.constantOutOfRange value, span⟩

/-- Whether a number is a word of 32 bits, with a sign or without one. -/
def IsWord32 (value : Int) : Prop :=
  -2 ^ 31 ≤ value ∧ value ≤ 2 ^ 32 - 1

theorem wordOf_of_isWord32 {value : Int} (isWord : IsWord32 value) (span : Span) :
    wordOf value span = .ok (Int32.ofInt value).toInt := by
  obtain ⟨lower, upper⟩ := isWord
  exact if_pos ⟨by omega, by omega⟩

theorem wordOf_of_not_isWord32 {value : Int} (noWord : ¬IsWord32 value) (span : Span) :
    wordOf value span = .error ⟨.constantOutOfRange value, span⟩ := by
  apply if_neg
  rintro ⟨lower, upper⟩
  exact noWord ⟨by omega, by omega⟩

/-- The function of a constant source. -/
def constantFunction (word : Int) : FunctionDefinition where
  index := 0
  typeIndex := 0
  frame := .ofParams [] [.i32]
  body := [.plain .i32Const (some (.literal word)) ⟨40, 49, 1, 41⟩]

/-- The module of a constant source. -/
def constantModule (word : Int) : Module where
  id := none
  fields := [.function (constantFunction word), .exported ⟨"f", .function, 0⟩]
  environment := ⟨⟨[none], [none], [], [], [], [], []⟩⟩

section Reading

open TokenStream Reader Builder

variable (value : Int) (text : String) (span right last finish : Span)

/-- The stream of a constant source behind its `i32.const`. -/
def behindConstant : TokenStream :=
  ⟨[⟨.integer value, text, span⟩, ⟨.rightParen, ")", right⟩, ⟨.rightParen, ")", last⟩], finish⟩

/-- The stream of a constant source, from some token on. -/
def constantStream (position : Nat) : TokenStream :=
  (behindConstant value text span right last finish).prepend (constantFront.drop position)

/-- The declarations of a constant module before its function is read. -/
def constantDeclarations : Declarations :=
  Declarations.empty.declare .function none

/-- The declarations of a constant module before the body of its function is
read. -/
def bodyDeclarations : Declarations :=
  { constantDeclarations.declareType none ⟨[], [.i32]⟩ with
    claimed := constantDeclarations.claimed.set .function 1 }

theorem word32_constant :
    word32 (behindConstant value text span right last finish) =
      (wordOf value span).map fun word =>
        (word, (behindConstant value text span right last finish).advance) := by
  show (if _ then _ else _ : Reader Int) _ = _
  unfold wordOf
  split
  · rfl
  · rfl

theorem plain_constant (scope : Scope) :
    plain scope (constantStream value text span right last finish 12) =
      (wordOf value span).map fun word =>
        (.plain .i32Const (some (.literal word)) ⟨40, 49, 1, 41⟩,
          (behindConstant value text span right last finish).advance) := by
  show ((word32 >>= fun word => pure (some (Operand.literal word))) >>= fun operand =>
    pure (Instruction.plain .i32Const operand ⟨40, 49, 1, 41⟩))
      (behindConstant value text span right last finish) = _
  rw [Reader.bind_apply, Reader.bind_apply, word32_constant]
  cases wordOf value span <;> rfl

theorem body_constant (environment : Environment) (frame : Frame) :
    Reader.body environment frame (constantStream value text span right last finish 12) =
      (wordOf value span).map fun word =>
        ([.plain .i32Const (some (.literal word)) ⟨40, 49, 1, 41⟩],
          (behindConstant value text span right last finish).advance) := by
  show ((plain _ >>= fun first => pure [first]) >>= fun first =>
    sequence _ _ >>= fun others => pure (first ++ others)) _ = _
  rw [Reader.bind_apply, Reader.bind_apply, plain_constant]
  cases wordOf value span <;> rfl

theorem functionField_constant (declarations : Declarations) :
    functionField 0 0 (.ofParams [] [.i32]) none declarations
        (constantStream value text span right last finish 12) =
      (wordOf value span).map fun word => ((.function (constantFunction word), declarations),
        (behindConstant value text span right last finish).advance.advance) := by
  have isBody : (liftM (Reader.body declarations.environment (.ofParams [] [.i32])) : Builder _)
      declarations (constantStream value text span right last finish 12) =
        (wordOf value span).map fun word =>
          (([.plain .i32Const (some (.literal word)) ⟨40, 49, 1, 41⟩], declarations),
            (behindConstant value text span right last finish).advance) := by
    show (Reader.body _ _ >>= fun code => pure (code, declarations)) _ = _
    rw [Reader.bind_apply, body_constant]
    cases wordOf value span <;> rfl
  show ((liftM (Reader.body declarations.environment (.ofParams [] [.i32])) : Builder _) >>=
    fun code => (liftM rightParen : Builder _) >>= fun _ =>
      pure (Field.function ⟨0, 0, .ofParams [] [.i32], code⟩)) declarations _ = _
  rw [Builder.bind_apply, isBody]
  cases wordOf value span <;> rfl

theorem function_constant :
    function constantDeclarations (constantStream value text span right last finish 2) =
      (wordOf value span).map fun word =>
        (([.function (constantFunction word), .exported ⟨"f", .function, 0⟩], bodyDeclarations),
          (behindConstant value text span right last finish).advance.advance) := by
  let stream := constantStream value text span right last finish
  let claimed : Declarations :=
    { constantDeclarations with claimed := constantDeclarations.claimed.set .function 1 }
  have opened : (liftM (openGroup .funcForm) : Builder _) constantDeclarations (stream 2) =
      .ok (((), constantDeclarations), stream 4) := rfl
  have claims : claim .function constantDeclarations (stream 4) =
      .ok ((0, claimed), stream 4) := rfl
  have unnamed : (liftM identifier? : Builder _) claimed (stream 4) =
      .ok ((none, claimed), stream 4) := rfl
  have exported : (liftM (many (atGroup .exportForm) inlineExport) : Builder _) claimed (stream 4) =
      .ok ((["f"], claimed), stream 8) := rfl
  have defined : (liftM inlineImport? : Builder _) claimed (stream 8) =
      .ok ((none, claimed), stream 8) := rfl
  have typed : typeUse claimed (stream 8) =
      .ok (((0, .ofParams [] [.i32]), bodyDeclarations), stream 12) := rfl
  have tail := functionField_constant value text span right last finish bodyDeclarations
  rw [function_eq]
  simp only [Builder.bind_apply, stream, opened, claims, unnamed, exported, defined, typed, tail]
  cases wordOf value span <;> rfl

theorem fields_constant :
    fields 15 constantDeclarations (constantStream value text span right last finish 2) =
      (wordOf value span).map fun word => (((constantModule word).fields, bodyDeclarations),
        (behindConstant value text span right last finish).advance.advance) := by
  let stream := constantStream value text span right last finish 2
  have shown : (getThe TokenStream : Builder _) constantDeclarations stream =
      .ok ((stream, constantDeclarations), stream) := rfl
  have grouped : stream.atLeftParen = true := rfl
  have word : (stream.nth 1).kind.keyword? = some .funcForm := rfl
  have isFunction : field constantDeclarations stream = function constantDeclarations stream := by
    rw [field_apply word]
  have read := function_constant value text span right last finish
  rw [fields]
  simp only [Builder.bind_apply, stream, shown, grouped, if_true, isFunction, read]
  cases wordOf value span <;> rfl

/-- The module that the tokens of a constant source spell. -/
theorem ofTokens_constant :
    Module.ofTokens (constantFront ++ [⟨.integer value, text, span⟩, ⟨.rightParen, ")", right⟩,
      ⟨.rightParen, ")", last⟩, .endAt finish]) = (wordOf value span).map constantModule := by
  let stream := constantStream value text span right last finish
  have opened : (liftM (openGroup .moduleForm) : Builder _) .empty (stream 0) =
      .ok (((), .empty), stream 2) := rfl
  have unnamed : (liftM identifier? : Builder _) .empty (stream 2) =
      .ok ((none, .empty), stream 2) := rfl
  have declared : declareAll .empty (stream 2) = .ok (((), constantDeclarations), stream 2) := rfl
  have shown : (getThe TokenStream : Builder _) constantDeclarations (stream 2) =
      .ok ((stream 2, constantDeclarations), stream 2) := rfl
  have length : (stream 2).ahead.length + 1 = 15 := rfl
  have read := fields_constant value text span right last finish
  have module : Builder.module .empty (stream 0) =
      (wordOf value span).map fun word =>
        ((constantModule word, bodyDeclarations), ⟨[], finish⟩) := by
    rw [Builder.module]
    simp only [Builder.bind_apply, opened, unnamed, declared, shown, length]
    simp only [stream, read]
    cases wordOf value span <;> rfl
  show (Builder.module .empty (stream 0) >>= fun result => pure result.1.1) = _
  rw [module]
  cases wordOf value span <;> rfl

end Reading

/-- A call needs one active call and three steps: the call, its body and the
instruction there. -/
theorem invokeExport_constant (word : Int) (limit fuel : Nat) :
    (Program.ofModule (constantModule word) (limit + 1)).invokeExport (fuel + 3) "f" [] .idle =
      some (.ok [Int32.ofInt word], .idle) := by
  rfl

section Running

variable {sign digits : List Char} {fuel limit : Nat}

/-- What is called is the word that the numeral stands for. -/
theorem run_constant_of_isInteger (numeral : IsNumeral sign digits)
    (isInteger : IsInteger sign digits) (enough : 3 ≤ fuel) (allowed : 1 ≤ limit) :
    run fuel limit (constantSource (sign ++ digits)) "f" [] =
      some (match wordOf (numeralValue sign digits) (literalSpan (sign ++ digits)) with
        | .ok word => .ok [Int32.ofInt word]
        | .error error => .error (.parse error)) := by
  obtain ⟨fuel, rfl⟩ := Nat.exists_eq_add_of_le' enough
  obtain ⟨limit, rfl⟩ := Nat.exists_eq_add_of_le' allowed
  obtain ⟨right, last, finish, lexed⟩ := tokenise_of_isInteger numeral isInteger
  rw [run, Module.parse, lexed]
  simp only [ofTokens_constant]
  cases wordOf (numeralValue sign digits) (literalSpan (sign ++ digits)) with
  | error error => rfl
  | ok word =>
      simp only [Except.map, invokeExport_constant]

theorem run_constant_of_not_isInteger (numeral : IsNumeral sign digits)
    (noInteger : ¬IsInteger sign digits) :
    run fuel limit (constantSource (sign ++ digits)) "f" [] =
      some (.error (.parse (.ofLexError
        ⟨.invalidInteger (String.ofList (sign ++ digits)), literalSpan (sign ++ digits)⟩))) := by
  rw [run, Module.parse, tokenise_of_not_isInteger numeral noInteger]

theorem run_constant_eq_ok_iff (numeral : IsNumeral sign digits) (enough : 3 ≤ fuel)
    (allowed : 1 ≤ limit) {results : List Int32} :
    run fuel limit (constantSource (sign ++ digits)) "f" [] = some (.ok results) ↔
      (∃ c ∈ digits, c.isDigit = true) ∧ IsWord32 (numeralValue sign digits) ∧
        ∃ word : Int32, results = [word] ∧
          word.toInt ≡ numeralValue sign digits [ZMOD 2 ^ 32] := by
  by_cases isInteger : IsInteger sign digits
  · rw [run_constant_of_isInteger numeral isInteger enough allowed]
    by_cases isWord : IsWord32 (numeralValue sign digits)
    · rw [wordOf_of_isWord32 isWord]
      simp only [Int32.ofInt_toInt, ← eq_ofInt_iff_modEq]
      constructor
      · rintro ⟨⟩
        exact ⟨isInteger.1, isWord, _, rfl, rfl⟩
      · rintro ⟨-, -, word, rfl, rfl⟩
        rfl
    · rw [wordOf_of_not_isWord32 isWord]
      constructor
      · rintro ⟨⟩
      · rintro ⟨-, inRange, -⟩
        exact absurd inRange isWord
  · rw [run_constant_of_not_isInteger numeral isInteger]
    constructor
    · rintro ⟨⟩
    · rintro ⟨hasDigit, ⟨lower, upper⟩, -⟩
      exact absurd ⟨hasDigit, by omega, by omega⟩ isInteger

end Running

/-- Numerals from their source to what they do.  Wherever a numeral ends, the
lexer gives the integer it stands for if it has a digit and fits in 64 bits, and
reports it otherwise.  If a word runs on behind its digits, it reports the
numeral with the word.  Behind `i32.const` in a function without anything else,
a call gives the word of 32 bits that is congruent to the number if the number
is in the range of the signed or of the unsigned words, and every other number
is reported when the module is read. -/
theorem numeral_decides {sign digits : List Char} (numeral : IsNumeral sign digits) :
    (∀ position gap rest, Gap false gap → (∀ c ∈ rest.head?, isWordChar c = false) →
      (Lexer.next ⟨⟨position, gap ++ (sign ++ digits) ++ rest⟩, false⟩).1 = some (
        if IsInteger sign digits then
          .ok ⟨.integer (numeralValue sign digits), String.ofList (sign ++ digits),
            (position.after gap).spanTo (position.after (gap ++ (sign ++ digits)))⟩
        else
          .error ⟨.invalidInteger (String.ofList (sign ++ digits)),
            (position.after gap).spanTo (position.after (gap ++ (sign ++ digits)))⟩)) ∧
    (∀ position gap rest, Gap false gap →
      (∃ c ∈ rest.head?, isWordChar c = true ∧ isDigitOrSeparator c = false) →
      (Lexer.next ⟨⟨position, gap ++ (sign ++ digits) ++ rest⟩, false⟩).1 = some (
        .error ⟨.invalidInteger (String.ofList (sign ++ digits ++ rest.takeWhile isWordChar)),
          (position.after gap).spanTo
            (position.after (gap ++ (sign ++ digits) ++ rest.takeWhile isWordChar))⟩)) ∧
    ∀ fuel limit, 3 ≤ fuel → 1 ≤ limit →
      (∀ results, run fuel limit (constantSource (sign ++ digits)) "f" [] = some (.ok results) ↔
        (∃ c ∈ digits, c.isDigit = true) ∧
          (-2 ^ 31 ≤ numeralValue sign digits ∧ numeralValue sign digits ≤ 2 ^ 32 - 1) ∧
          ∃ word : Int32, results = [word] ∧
            word.toInt ≡ numeralValue sign digits [ZMOD 2 ^ 32]) ∧
      (IsInteger sign digits →
        ¬(-2 ^ 31 ≤ numeralValue sign digits ∧ numeralValue sign digits ≤ 2 ^ 32 - 1) →
        run fuel limit (constantSource (sign ++ digits)) "f" [] = some (.error (.parse
          ⟨.constantOutOfRange (numeralValue sign digits), literalSpan (sign ++ digits)⟩))) ∧
      (¬IsInteger sign digits →
        run fuel limit (constantSource (sign ++ digits)) "f" [] = some (.error (.parse (.ofLexError
          ⟨.invalidInteger (String.ofList (sign ++ digits)), literalSpan (sign ++ digits)⟩)))) := by
  refine ⟨fun position gap rest isGap stops => Lexer.item_of_numeral isGap numeral stops position,
    fun position gap rest isGap runsOn =>
      Lexer.item_of_word_behind_numeral isGap numeral runsOn position, ?_⟩
  intro fuel limit enough allowed
  refine ⟨fun results => run_constant_eq_ok_iff numeral enough allowed, ?_,
    run_constant_of_not_isInteger numeral⟩
  intro isInteger noWord
  rw [run_constant_of_isInteger numeral isInteger enough allowed, wordOf_of_not_isWord32 noWord]

/-- The least word with leading zeros and a separator, the first number that is
no word, and a numeral without digits. -/
theorem numeral_decides_extreme :
    let least := "00_2147483648".toList
    let large := "4294967296".toList
    (IsNumeral ['-'] least ∧ IsNumeral [] large ∧ IsNumeral ['+'] ['_']) ∧
      (Lexer.next ⟨⟨.first, ' ' :: '-' :: (least ++ [')'])⟩, false⟩).1 =
        some (.ok ⟨.integer (-2147483648), "-00_2147483648", ⟨1, 15, 1, 2⟩⟩) ∧
      (Lexer.next ⟨⟨.first, '-' :: (least ++ ['x', '$', ')'])⟩, false⟩).1 =
        some (.error ⟨.invalidInteger "-00_2147483648x$", ⟨0, 16, 1, 1⟩⟩) ∧
      run 3 1 (constantSource ('-' :: least)) "f" [] = some (.ok [-2147483648]) ∧
      run 3 1 (constantSource large) "f" [] =
        some (.error (.parse ⟨.constantOutOfRange 4294967296, ⟨50, 60, 1, 51⟩⟩)) ∧
      run 3 1 (constantSource ['+', '_']) "f" [] =
        some (.error (.parse (.ofLexError ⟨.invalidInteger "+_", ⟨50, 52, 1, 51⟩⟩))) := by
  intro least large
  have leastNumeral : IsNumeral ['-'] least :=
    ⟨.inr (.inl rfl), List.all_eq_true.mp (by decide +kernel)⟩
  have largeNumeral : IsNumeral [] large :=
    ⟨.inr (.inr ⟨rfl, '4', by decide +kernel, by decide⟩),
      List.all_eq_true.mp (by decide +kernel)⟩
  have noDigits : IsNumeral ['+'] ['_'] := ⟨.inl rfl, List.forall_mem_singleton.mpr (by decide)⟩
  have leastValue : numeralValue ['-'] least = -2147483648 := by decide +kernel
  refine ⟨⟨leastNumeral, largeNumeral, noDigits⟩, ?_, ?_, ?_, ?_, ?_⟩
  · have given := (numeral_decides leastNumeral).1 .first [' '] [')'] (.blank (by decide) .nil)
      (by rintro c ⟨⟩; decide)
    rw [if_pos (by decide +kernel), leastValue] at given
    exact given
  · exact (numeral_decides leastNumeral).2.1 .first [] ['x', '$', ')'] .nil
      ⟨'x', rfl, by decide⟩
  · have ran := (numeral_decides leastNumeral).2.2 3 1 (by decide) (by decide)
    refine (ran.1 [-2147483648]).mpr ⟨⟨'0', by decide +kernel, by decide⟩, ?_, _, rfl, ?_⟩
    · rw [leastValue]
      decide
    · rw [leastValue]
      decide
  · have ran := (numeral_decides largeNumeral).2.2 3 1 (by decide) (by decide)
    exact ran.2.1 (by decide +kernel) (by decide +kernel)
  · have ran := (numeral_decides noDigits).2.2 3 1 (by decide) (by decide)
    exact ran.2.2 (by decide +kernel)

end WatMachine
