import WatMachine.Proofs.Token.Layouts

/-!
# Spellings of tokens

Every kind of token that lexing gives has a canonical spelling: integers in
decimal without separators, and each of the other kinds in the one way that it
can be written.  So spelling and lexing are inverse to each other, up to the
spelling of integers and the trivia between tokens: canonical spellings with a
blank between them are read back as the kinds they were written for, and the
texts of the tokens of a source, with a blank between them, as the kinds of
the source.
-/

namespace WatMachine

open Source

theorem Lexeme.isWord_iff {characters : List Char} :
    IsWord characters ↔
      characters.head?.any Char.isLower = true ∧ characters.all isWordChar = true := by
  rw [Option.any_eq_true, List.all_eq_true]
  exact ⟨fun ⟨lower, word⟩ => ⟨lower, word⟩, fun ⟨lower, word⟩ => ⟨lower, word⟩⟩

instance (characters : List Char) : Decidable (Lexeme.IsWord characters) :=
  decidable_of_iff' _ Lexeme.isWord_iff

namespace TokenKind

/-- The canonical spelling of a kind. -/
def spelling : TokenKind → String
  | leftParen => "("
  | rightParen => ")"
  | string value => "\"" ++ String.ofList (Lexeme.escaped value.toList) ++ "\""
  | integer value => toString value
  | identifier name => "$" ++ name
  | keyword word => word.spelling
  | reserved word => word
  | endOfInput => ""

/-- Whether some text can be written for a kind. -/
def Spellable : TokenKind → Prop
  | leftParen | rightParen | keyword _ => True
  | string value => '\\' ∉ value.toList
  | integer value => -0x8000000000000000 ≤ value ∧ value < 0x8000000000000000
  | identifier name => name.toList ≠ [] ∧ ∀ c ∈ name.toList, Lexeme.isWordChar c = true
  | reserved word => Lexeme.IsWord word.toList ∧ Keyword.ofSpelling? word = none
  | endOfInput => False

instance : DecidablePred Spellable
  | leftParen | rightParen | keyword _ => .isTrue trivial
  | string _ => inferInstanceAs (Decidable (_ ∉ _))
  | integer _ | reserved _ => inferInstanceAs (Decidable (_ ∧ _))
  | identifier name => decidable_of_iff (name.toList ≠ [] ∧ name.toList.all Lexeme.isWordChar)
      (by rw [List.all_eq_true, Spellable])
  | endOfInput => .isFalse id

end TokenKind

namespace Keyword

theorem ofSpelling?_spelling (word : Keyword) : ofSpelling? word.spelling = some word := by
  cases word <;> rfl

theorem spelling_of_ofSpelling? {text : String} {word : Keyword}
    (found : ofSpelling? text = some word) : text = word.spelling := by
  have spelled := List.find?_some found
  exact (beq_iff_eq.mp spelled).symm

theorem spelling_isWord (word : Keyword) : Lexeme.IsWord word.spelling.toList := by
  rw [Lexeme.isWord_iff]
  cases word <;> exact ⟨rfl, rfl⟩

end Keyword

namespace Lexeme

section Decimal

theorem fitsSigned64_iff {value : Int} :
    fitsSigned64 value = true ↔ -0x8000000000000000 ≤ value ∧ value < 0x8000000000000000 := by
  simp [fitsSigned64]

/-- The decimal digits of a number, behind the sign that is theirs, stand for
it. -/
theorem integerValue?_toDigits {sign : List Char} {value : Int} {magnitude : Nat}
    (signed : (if sign = ['-'] then -(magnitude : Int) else magnitude) = value)
    (fits : fitsSigned64 value = true) :
    integerValue? sign (Nat.toDigits 10 magnitude) = some value := by
  have digits : (Nat.toDigits 10 magnitude).filter Char.isDigit = Nat.toDigits 10 magnitude := by
    rw [List.filter_eq_self]
    intro c digit
    exact Nat.isDigit_of_mem_toDigits (by omega) (by omega) digit
  have number : digitsValue (Nat.toDigits 10 magnitude) = magnitude :=
    Nat.ofDigitChars_toDigits (by omega) (by omega)
  have nonempty : (Nat.toDigits 10 magnitude).isEmpty = false := by
    simp [Nat.toDigits_ne_nil]
  simp only [integerValue?, digits, number, nonempty, signed, fits]
  rfl

theorem spells_integer {value : Int} (fits : fitsSigned64 value = true) :
    Spells (.integer value) (toString value).toList := by
  have digits (magnitude : Nat) (c : Char) (digit : c ∈ Nat.toDigits 10 magnitude) :
      c.isDigit = true :=
    Nat.isDigit_of_mem_toDigits (by omega) (by omega) digit
  have run (magnitude : Nat) (c : Char) (digit : c ∈ Nat.toDigits 10 magnitude) :
      isDigitOrSeparator c = true := by
    simp [isDigitOrSeparator, digits magnitude c digit]
  rw [Int.toString_eq_repr, Int.repr_eq_if]
  split
  next positive =>
      have number : integerValue? [] (Nat.toDigits 10 value.toNat) = some value := by
        apply integerValue?_toDigits _ fits
        exact Int.toNat_of_nonneg positive
      rw [Nat.toList_repr]
      refine .integer (.inr (.inr ⟨rfl, _, List.head?_eq_some_head Nat.toDigits_ne_nil, ?_⟩))
        (run _) number
      exact digits _ _ (List.head_mem _)
  next negative =>
      have number : integerValue? ['-'] (Nat.toDigits 10 (-value).toNat) = some value := by
        apply integerValue?_toDigits _ fits
        rw [if_pos rfl]
        omega
      rw [String.toList_append, Nat.toList_repr]
      exact .integer (.inr (.inl rfl)) (run _) number

end Decimal

theorem fits_of_integerValue? {sign run : List Char} {value : Int}
    (number : integerValue? sign run = some value) : fitsSigned64 value = true := by
  obtain ⟨fits, isValue⟩ := Option.ite_none_right_eq_some.mp number
  rw [Option.some.inj isValue] at fits
  exact (Bool.and_eq_true_iff.mp fits).2

/-- The canonical spelling of a kind is a lexeme of that kind. -/
theorem spells_spelling {kind : TokenKind} (spellable : kind.Spellable) :
    Spells kind kind.spelling.toList := by
  cases kind with
  | leftParen => exact .leftParen
  | rightParen => exact .rightParen
  | string value =>
      have spells := Spells.string spellable
      rw [String.ofList_toList] at spells
      simpa [TokenKind.spelling] using spells
  | integer value => exact spells_integer (fitsSigned64_iff.mpr spellable)
  | identifier name =>
      have spells := Spells.identifier spellable.1 spellable.2
      rw [String.ofList_toList] at spells
      simpa [TokenKind.spelling] using spells
  | keyword word =>
      apply Spells.keyword word.spelling_isWord
      rw [String.ofList_toList, Keyword.ofSpelling?_spelling]
  | reserved word =>
      have unknown : Keyword.ofSpelling? (String.ofList word.toList) = none := by
        rw [String.ofList_toList]
        exact spellable.2
      have spells := Spells.reserved spellable.1 unknown
      rwa [String.ofList_toList] at spells
  | endOfInput => exact spellable.elim

theorem Spells.spellable {kind : TokenKind} {characters : List Char}
    (spells : Spells kind characters) : kind.Spellable := by
  cases spells with
  | leftParen => trivial
  | rightParen => trivial
  | string plain =>
      rw [TokenKind.Spellable, String.toList_ofList]
      exact plain
  | integer signed digits number => exact fitsSigned64_iff.mp (fits_of_integerValue? number)
  | identifier nonempty word =>
      rw [TokenKind.Spellable, String.toList_ofList]
      exact ⟨nonempty, word⟩
  | keyword isWord found => trivial
  | reserved isWord unknown =>
      rw [TokenKind.Spellable, String.toList_ofList]
      exact ⟨isWord, unknown⟩

/-- Only integers are written in more than one way. -/
theorem Spells.eq_spelling {kind : TokenKind} {characters : List Char}
    (spells : Spells kind characters) (noInteger : ∀ value, kind ≠ .integer value) :
    String.ofList characters = kind.spelling := by
  cases spells with
  | leftParen => rfl
  | rightParen => rfl
  | string plain =>
      rw [← String.toList_inj]
      simp [TokenKind.spelling]
  | integer signed digits number => exact absurd rfl (noInteger _)
  | identifier nonempty word =>
      rw [← String.toList_inj]
      simp [TokenKind.spelling]
  | keyword isWord found => exact Keyword.spelling_of_ofSpelling? found
  | reserved isWord unknown => rfl

/-- Whether texts are lexemes of some kinds, in their order, apart from texts
that are empty. -/
inductive Spelled : List TokenKind → List (List Char) → Prop where
  | nil : Spelled [] []
  | nothing {kinds : List TokenKind} {texts : List (List Char)} (others : Spelled kinds texts) :
      Spelled kinds ([] :: texts)
  | lexeme {kind : TokenKind} {text : List Char} {kinds : List TokenKind}
      {texts : List (List Char)} (spells : Spells kind text) (others : Spelled kinds texts) :
      Spelled (kind :: kinds) (text :: texts)

theorem spelled_map {α : Type} {items : List α} {kind : α → TokenKind} {text : α → List Char}
    {ends : List (List Char)} (spell : ∀ item ∈ items, Spells (kind item) (text item))
    (ended : Spelled [] ends) : Spelled (items.map kind) (items.map text ++ ends) := by
  induction items with
  | nil => exact ended
  | cons item items ih =>
      obtain ⟨spells, others⟩ := List.forall_mem_cons.mp spell
      exact .lexeme spells (ih others)

/-- A blank in front of a text belongs to its first gap. -/
theorem laidOut_blank {kinds : List TokenKind} {text : List Char} (laidOut : LaidOut kinds text) :
    LaidOut kinds (' ' :: text) := by
  cases laidOut with
  | last isGap => exact .last (.blank (by decide) isGap)
  | next isGap spells stops apart others =>
      exact .next (.blank (by decide) isGap) spells stops apart others

/-- A lexeme stays apart from a text that begins with a blank. -/
theorem laidOut_cons {kind : TokenKind} {kinds : List TokenKind} {characters rest : List Char}
    (spells : Spells kind characters) (begins : ∀ c ∈ rest.head?, c = ' ')
    (others : LaidOut kinds rest) : LaidOut (kind :: kinds) (characters ++ rest) := by
  have stops : Stops kind rest := by
    intro _ c first
    rw [begins c first]
    rfl
  have apart : kind = .leftParen → rest.head? ≠ some ';' := by
    intro _ follows
    exact absurd (begins ';' follows) (by decide)
  exact .next .nil spells stops apart others

/-- Texts that are put together with blanks are laid out for the kinds of
them. -/
theorem Spelled.laidOut {kinds : List TokenKind} {texts : List (List Char)}
    (spelled : Spelled kinds texts) : LaidOut kinds ([' '].intercalate texts) := by
  induction spelled with
  | nil => exact .last .nil
  | @nothing kinds texts _ ih =>
      cases texts with
      | nil => exact ih
      | cons other texts =>
          rw [List.intercalate_cons_cons]
          exact laidOut_blank ih
  | @lexeme kind text kinds texts spells _ ih =>
      cases texts with
      | nil =>
          have alone := laidOut_cons spells (by simp) ih
          simpa using alone
      | cons other texts =>
          rw [List.intercalate_cons_cons, List.append_assoc]
          exact laidOut_cons spells (by simp) (laidOut_blank ih)

end Lexeme

open Lexeme

/-- Spelling and lexing are inverse.  Canonical spellings with blanks between
them are lexed to the kinds they were written for.  In a source that is lexed,
every token but the last has a kind that can be spelled, its text is the
canonical spelling unless it is an integer, and the texts of all tokens with
blanks between them are lexed to the same kinds. -/
theorem tokenise_spelling :
    (∀ kinds : List TokenKind, (∀ kind ∈ kinds, kind.Spellable) →
      ∃ tokens, tokenise (" ".intercalate (kinds.map TokenKind.spelling)) = .ok tokens ∧
        tokens.map (·.kind) = kinds ++ [.endOfInput]) ∧
    ∀ source tokens, tokenise source = .ok tokens →
      (∀ token ∈ tokens, token.kind ≠ .endOfInput → token.kind.Spellable ∧
        ((∀ value, token.kind ≠ .integer value) → token.text = token.kind.spelling)) ∧
      ∃ again, tokenise (" ".intercalate (tokens.map (·.text))) = .ok again ∧
        again.map (·.kind) = tokens.map (·.kind) := by
  constructor
  · intro kinds spellable
    have spell (kind : TokenKind) (among : kind ∈ kinds) : Spells kind kind.spelling.toList :=
      spells_spelling (spellable kind among)
    have spelled := spelled_map spell .nil
    rw [List.map_id', List.append_nil] at spelled
    rw [tokenise_iff_laidOut, String.toList_intercalate, List.map_map]
    exact spelled.laidOut
  · intro source tokens lexed
    obtain ⟨lexemes, last, rfl, isEnd, empty, spell, -⟩ := Cursor.tokens_laidOut lexed
    constructor
    · intro token among notEnd
      have spells : Spells token.kind token.text.toList := by
        rcases List.mem_append.mp among with inside | isLast
        · exact spell token inside
        · rw [List.mem_singleton.mp isLast] at notEnd
          exact absurd isEnd notEnd
      refine ⟨spells.spellable, ?_⟩
      intro noInteger
      rw [← spells.eq_spelling noInteger, String.ofList_toList]
    · have spelled := spelled_map spell (.nothing .nil)
      have texts : ((lexemes ++ [last]).map (·.text)).map String.toList =
          lexemes.map (·.text.toList) ++ [[]] := by
        simp [empty]
      have kinds : (lexemes ++ [last]).map (·.kind) = lexemes.map (·.kind) ++ [.endOfInput] := by
        simp [isEnd]
      rw [kinds, tokenise_iff_laidOut, String.toList_intercalate, texts]
      exact spelled.laidOut

/-- Strings with quotes, newlines and comment openers, the least integer and a
word that starts as a keyword does; and a source where an integer is written in
another way and trivia stands between tokens. -/
theorem tokenise_spelling_extreme :
    (∃ tokens, tokenise (" ".intercalate (
        [.string "a\"\n(;é", .integer (-0x8000000000000000), .identifier "0", .keyword .funcForm,
          .reserved "func1"].map TokenKind.spelling)) = .ok tokens ∧
      tokens.map (·.kind) = [.string "a\"\n(;é", .integer (-0x8000000000000000), .identifier "0",
        .keyword .funcForm, .reserved "func1", .endOfInput]) ∧
    ∃ again, tokenise "( +1_0 ) " = .ok again ∧
      again.map (·.kind) = [.leftParen, .integer 10, .rightParen, .endOfInput] := by
  constructor
  · apply tokenise_spelling.1
    decide
  · have lexed : tokenise "((;;)+1_0\n)" = .ok [⟨.leftParen, "(", ⟨0, 1, 1, 1⟩⟩,
        ⟨.integer 10, "+1_0", ⟨5, 9, 1, 6⟩⟩, ⟨.rightParen, ")", ⟨10, 11, 2, 1⟩⟩,
        .endAt ⟨11, 11, 2, 2⟩] := by decide +kernel
    exact (tokenise_spelling.2 _ _ lexed).2

end WatMachine
